import SsrBackend.Foundation.Machine
import SsrBackend.Runtime.Supervisor

/-!
What `sync_users` does to the listeners. A port is looked at alone: a row of
another port leaves its entry and its tasks, and its own rows replace the entry
only where the fingerprint is another one.
-/

namespace SsrBackend

namespace BackendRuntime

/-- The fingerprint of a row with a supported profile. -/
def fingerprint? (node : NodeConfig) (user : PanelUser) : Option UserFingerprint :=
  (Profile.fromUser user node).toOption.map (fingerprintOf user)

/-- What a part of `sync_users` may do to the listeners of some ports. -/
structure Touches (ports : UInt16 → Prop) (rt rt' : BackendRuntime) : Prop where
  config_eq : rt'.config = rt.config
  next_le : rt.nextTask ≤ rt'.nextTask
  actions_eq : ∃ done, rt'.actions = rt.actions ++ done ∧ ∀ action ∈ done, ports action.port
  entry_eq : ∀ port, ¬ports port → rt'.activeUsers[port]? = rt.activeUsers[port]?

namespace Touches

variable {ports : UInt16 → Prop} {rt rt' rt'' : BackendRuntime}

theorem refl (rt : BackendRuntime) : Touches ports rt rt := by
  refine ⟨rfl, Nat.le_refl _, ⟨[], ?_, ?_⟩, fun _ _ => rfl⟩
  · exact (List.append_nil _).symm
  · intro action hmem
    cases hmem

theorem trans (h : Touches ports rt rt') (h' : Touches ports rt' rt'') :
    Touches ports rt rt'' := by
  obtain ⟨done, hdone, hports⟩ := h.actions_eq
  obtain ⟨done', hdone', hports'⟩ := h'.actions_eq
  refine ⟨h'.config_eq.trans h.config_eq, Nat.le_trans h.next_le h'.next_le,
    ⟨done ++ done', ?_, ?_⟩, ?_⟩
  · rw [hdone', hdone, List.append_assoc]
  · intro action hmem
    cases List.mem_append.mp hmem with
    | inl hmem => exact hports action hmem
    | inr hmem => exact hports' action hmem
  · intro port hport
    exact (h'.entry_eq port hport).trans (h.entry_eq port hport)

theorem actions_length (h : Touches ports rt rt') : rt.actions.length ≤ rt'.actions.length := by
  obtain ⟨done, hdone, -⟩ := h.actions_eq
  rw [hdone, List.length_append]
  exact Nat.le_add_right ..

theorem mono {ports' : UInt16 → Prop} (h : Touches ports rt rt')
    (himp : ∀ port, ports port → ports' port) : Touches ports' rt rt' := by
  obtain ⟨done, hdone, hports⟩ := h.actions_eq
  refine ⟨h.config_eq, h.next_le, ⟨done, hdone, ?_⟩, ?_⟩
  · intro action hmem
    exact himp _ (hports action hmem)
  · intro port hport
    exact h.entry_eq port fun hports => hport (himp port hports)

theorem foldl {α : Type} {f : BackendRuntime → α → BackendRuntime} (xs : List α)
    (h : ∀ x ∈ xs, ∀ rt, Touches ports rt (f rt x)) (rt : BackendRuntime) :
    Touches ports rt (xs.foldl f rt) := by
  induction xs generalizing rt with
  | nil => exact refl rt
  | cons x xs ih =>
      have hfirst := h x (List.mem_cons_self ..) rt
      exact hfirst.trans (ih (fun y hy => h y (List.mem_cons_of_mem x hy)) (f rt x))

end Touches

/-- Nothing is spawned or stopped on a port. -/
def Silent (port : UInt16) (rt rt' : BackendRuntime) : Prop :=
  ∃ done, rt'.actions = rt.actions ++ done ∧ ∀ action ∈ done, action.port ≠ port

theorem Silent.refl (port : UInt16) (rt : BackendRuntime) : Silent port rt rt := by
  refine ⟨[], (List.append_nil _).symm, ?_⟩
  intro action hmem
  cases hmem

theorem Silent.trans {port : UInt16} {rt rt' rt'' : BackendRuntime} (h : Silent port rt rt')
    (h' : Silent port rt' rt'') : Silent port rt rt'' := by
  obtain ⟨done, hdone, hports⟩ := h
  obtain ⟨done', hdone', hports'⟩ := h'
  refine ⟨done ++ done', by rw [hdone', hdone, List.append_assoc], ?_⟩
  intro action hmem
  exact (List.mem_append.mp hmem).elim (hports action) (hports' action)

theorem Touches.silent {ports : UInt16 → Prop} {rt rt' : BackendRuntime} {port : UInt16}
    (h : Touches ports rt rt') (hport : ¬ports port) : Silent port rt rt' := by
  obtain ⟨done, hdone, hports⟩ := h.actions_eq
  refine ⟨done, hdone, ?_⟩
  intro action hmem heq
  rw [← heq] at hport
  exact hport (hports action hmem)

theorem Silent.actions_eq {rt rt' : BackendRuntime} (h : ∀ port, Silent port rt rt') :
    rt'.actions = rt.actions := by
  obtain ⟨done, hdone, -⟩ := h 0
  rw [hdone]
  cases done with
  | nil => exact List.append_nil _
  | cons action done =>
      obtain ⟨done', hdone', hports⟩ := h action.port
      have heq := List.append_cancel_left (hdone.symm.trans hdone')
      rw [← heq] at hports
      exact absurd rfl (hports action (List.mem_cons_self ..))

/-- The fingerprint of the entry of a port. -/
def fingerprintAt (rt : BackendRuntime) (port : UInt16) : Option UserFingerprint :=
  (rt.activeUsers[port]?).map ActiveUser.fingerprint

theorem Touches.fingerprintAt_eq {ports : UInt16 → Prop} {rt rt' : BackendRuntime}
    (h : Touches ports rt rt') {port : UInt16} (hport : ¬ports port) :
    rt'.fingerprintAt port = rt.fingerprintAt port := by
  rw [fingerprintAt, h.entry_eq port hport, fingerprintAt]

/-! ### One row -/

/-- The entry made by a row: its tasks are new and hold the user of the row. -/
structure Fresh (rt rt' : BackendRuntime) (user : PanelUser) (active : ActiveUser) : Prop where
  tcp_isSome : active.tcp.isSome = rt.config.node.tcpEnabled
  udp_isSome : active.udp.isSome = rt.config.node.udpEnabled
  userId_eq : ∀ task ∈ active.tasks, task.userId = user.userId
  next_le : ∀ task ∈ active.tasks, rt.nextTask ≤ task.id
  lt_next : ∀ task ∈ active.tasks, task.id < rt'.nextTask

theorem tasks_ne_nil {active : ActiveUser} (h : active.tcp.isSome ∨ active.udp.isSome) :
    active.tasks ≠ [] := by
  rw [ActiveUser.tasks]
  cases h with
  | inl htcp =>
      obtain ⟨task, htask⟩ := Option.isSome_iff_exists.mp htcp
      rw [htask]
      exact List.cons_ne_nil _ _
  | inr hudp =>
      obtain ⟨task, htask⟩ := Option.isSome_iff_exists.mp hudp
      rw [htask]
      exact List.append_ne_nil_of_right_ne_nil _ (List.cons_ne_nil _ _)

theorem tasks_eq_nil {active : ActiveUser} (htcp : active.tcp.isSome = false)
    (hudp : active.udp.isSome = false) : active.tasks = [] := by
  rw [Option.isSome_eq_false_iff, Option.isNone_iff_eq_none] at htcp hudp
  rw [ActiveUser.tasks, htcp, hudp]
  rfl

theorem removePort_of_none {rt : BackendRuntime} {port : UInt16}
    (h : rt.activeUsers[port]? = none) : rt.removePort port = rt := by
  rw [removePort, h]

theorem removePort_touches (rt : BackendRuntime) (port : UInt16) :
    Touches (· = port) rt (rt.removePort port) := by
  rw [removePort]
  cases rt.activeUsers[port]? with
  | none => exact .refl rt
  | some active =>
      refine ⟨rfl, Nat.le_refl _, ⟨active.stop port, rfl, ?_⟩, ?_⟩
      · intro action hmem
        obtain ⟨task, -, rfl⟩ := List.mem_map.mp hmem
        rfl
      · intro other hother
        rw [Std.HashMap.getElem?_erase, if_neg (by simpa using fun heq => hother heq.symm)]

theorem spawnIf_state (rt : BackendRuntime) (enabled : Bool) (kind : ListenerKind)
    (user : PanelUser) (profile : Profile) :
    (rt.spawnIf enabled kind user profile).2 = { rt with
      nextTask := rt.nextTask + (rt.spawnIf enabled kind user profile).1.toList.length
      actions := rt.actions ++
        (rt.spawnIf enabled kind user profile).1.toList.map ListenerAction.spawn } := by
  cases enabled with
  | true => rfl
  | false =>
      rw [spawnIf]
      simp

theorem spawnIf_isSome (rt : BackendRuntime) (enabled : Bool) (kind : ListenerKind)
    (user : PanelUser) (profile : Profile) :
    (rt.spawnIf enabled kind user profile).1.isSome = enabled := by
  cases enabled with
  | true => rfl
  | false => rfl

theorem spawnIf_task {rt : BackendRuntime} {enabled : Bool} {kind : ListenerKind}
    {user : PanelUser} {profile : Profile} {task : ListenerTask}
    (hmem : task ∈ (rt.spawnIf enabled kind user profile).1.toList) :
    task.id = rt.nextTask ∧ task.userId = user.userId ∧ task.port = user.port := by
  cases enabled with
  | true =>
      rw [List.mem_singleton.mp hmem]
      exact ⟨rfl, rfl, rfl⟩
  | false => cases hmem

/-- `ensure_active_user` past its early return. -/
def restart (rt : BackendRuntime) (user : PanelUser) (profile : Profile) : BackendRuntime :=
  let removed := rt.removePort user.port
  let tcp := removed.spawnIf removed.config.node.tcpEnabled .tcp user profile
  let udp := tcp.2.spawnIf removed.config.node.udpEnabled .udp user profile
  { udp.2 with
    activeUsers := udp.2.activeUsers.insert user.port ⟨fingerprintOf user profile, tcp.1, udp.1⟩ }

theorem ensureActiveUser_eq (rt : BackendRuntime) (user : PanelUser) (profile : Profile) :
    rt.ensureActiveUser user profile =
      if rt.fingerprintAt user.port = some (fingerprintOf user profile) then rt
      else rt.restart user profile := by
  rw [ensureActiveUser, fingerprintAt]
  cases rt.activeUsers[user.port]? with
  | none => rfl
  | some active => simp only [Option.any_some, decide_eq_true_eq, Option.map_some, Option.some.injEq]; rfl

section Restart

variable (rt : BackendRuntime) (user : PanelUser) (profile : Profile)

/-- The entry that `restart` makes. -/
def restarted : ActiveUser :=
  let removed := rt.removePort user.port
  let tcp := removed.spawnIf removed.config.node.tcpEnabled .tcp user profile
  ⟨fingerprintOf user profile, tcp.1,
    (tcp.2.spawnIf removed.config.node.udpEnabled .udp user profile).1⟩

theorem restart_entry (port : UInt16) :
    (rt.restart user profile).activeUsers[port]? =
      if user.port = port then some (rt.restarted user profile)
      else rt.activeUsers[port]? := by
  rw [restart, Std.HashMap.getElem?_insert]
  by_cases hport : user.port = port
  · rw [if_pos (by simpa using hport), if_pos hport]
    rfl
  · rw [if_neg (by simpa using hport), if_neg hport]
    simp only [spawnIf_state]
    exact (rt.removePort_touches user.port).entry_eq port fun h => hport h.symm

theorem removePort_nextTask (port : UInt16) : (rt.removePort port).nextTask = rt.nextTask := by
  rw [removePort]
  cases rt.activeUsers[port]? with
  | none => rfl
  | some active => rfl

theorem restart_config : (rt.restart user profile).config = rt.config := by
  rw [restart]
  simp only [spawnIf_state]
  exact (rt.removePort_touches user.port).config_eq

theorem restart_nextTask :
    (rt.restart user profile).nextTask =
      rt.nextTask + (rt.restarted user profile).tasks.length := by
  rw [restart, restarted, ActiveUser.tasks]
  simp only [spawnIf_state, List.length_append]
  rw [removePort_nextTask, Nat.add_assoc]

theorem restart_actions :
    (rt.restart user profile).actions = (rt.removePort user.port).actions ++
      (rt.restarted user profile).tasks.map ListenerAction.spawn := by
  rw [restart, restarted, ActiveUser.tasks]
  simp only [spawnIf_state, List.map_append]
  exact List.append_assoc ..

theorem restarted_task {task : ListenerTask} (hmem : task ∈ (rt.restarted user profile).tasks) :
    task.userId = user.userId ∧ task.port = user.port ∧ rt.nextTask ≤ task.id ∧
      task.id < (rt.restart user profile).nextTask := by
  have hlength := restart_nextTask rt user profile
  rw [restarted, ActiveUser.tasks] at hmem hlength
  rw [List.length_append] at hlength
  dsimp only at hmem hlength
  cases List.mem_append.mp hmem with
  | inl htcp =>
      have hpos := List.length_pos_of_mem htcp
      obtain ⟨hid, huser, hport⟩ := spawnIf_task htcp
      rw [removePort_nextTask] at hid
      exact ⟨huser, hport, by omega, by omega⟩
  | inr hudp =>
      have hpos := List.length_pos_of_mem hudp
      obtain ⟨hid, huser, hport⟩ := spawnIf_task hudp
      rw [spawnIf_state, removePort_nextTask] at hid
      simp only at hid
      exact ⟨huser, hport, by omega, by omega⟩

theorem restart_fresh :
    Fresh rt (rt.restart user profile) user (rt.restarted user profile) := by
  have hconfig := (rt.removePort_touches user.port).config_eq
  refine ⟨?_, ?_, ?_, ?_, ?_⟩
  · rw [← hconfig]
    exact spawnIf_isSome ..
  · rw [← hconfig]
    exact spawnIf_isSome ..
  · intro task hmem
    exact (rt.restarted_task user profile hmem).1
  · intro task hmem
    exact (rt.restarted_task user profile hmem).2.2.1
  · intro task hmem
    exact (rt.restarted_task user profile hmem).2.2.2

theorem restart_touches : Touches (· = user.port) rt (rt.restart user profile) := by
  obtain ⟨done, hdone, hports⟩ := (rt.removePort_touches user.port).actions_eq
  refine ⟨restart_config .., ?_, ⟨done ++ (rt.restarted user profile).tasks.map .spawn, ?_, ?_⟩, ?_⟩
  · rw [restart_nextTask]
    exact Nat.le_add_right ..
  · rw [restart_actions, hdone, List.append_assoc]
  · intro action hmem
    cases List.mem_append.mp hmem with
    | inl hmem => exact hports action hmem
    | inr hmem =>
        obtain ⟨task, htask, rfl⟩ := List.mem_map.mp hmem
        exact (rt.restarted_task user profile htask).2.1
  · intro port hport
    rw [restart_entry, if_neg fun h => hport h.symm]

end Restart

/-- A row is skipped, or agrees with the entry of its port, or replaces it. -/
theorem ensureListener_cases (rt : BackendRuntime) (user : PanelUser) :
    (rt.ensureListener user = rt ∧
      ∀ fingerprint, fingerprint? rt.config.node user = some fingerprint →
        rt.fingerprintAt user.port = some fingerprint) ∨
    ∃ profile, fingerprint? rt.config.node user = some (fingerprintOf user profile) ∧
      rt.fingerprintAt user.port ≠ some (fingerprintOf user profile) ∧
      rt.ensureListener user = rt.restart user profile := by
  rw [ensureListener, fingerprint?]
  cases Profile.fromUser user rt.config.node with
  | error reason =>
      refine Or.inl ⟨rfl, ?_⟩
      intro fingerprint hsome
      cases hsome
  | ok profile =>
      have heq := ensureActiveUser_eq rt user profile
      by_cases hsame : rt.fingerprintAt user.port = some (fingerprintOf user profile)
      · rw [if_pos hsame] at heq
        refine Or.inl ⟨heq, ?_⟩
        intro fingerprint hsome
        cases hsome
        exact hsame
      · rw [if_neg hsame] at heq
        exact Or.inr ⟨profile, rfl, hsame, heq⟩

theorem ensureListener_touches (rt : BackendRuntime) (user : PanelUser) :
    Touches (· = user.port) rt (rt.ensureListener user) := by
  rcases ensureListener_cases rt user with ⟨hkept, -⟩ | ⟨profile, -, -, hrestart⟩
  · rw [hkept]
    exact .refl rt
  · rw [hrestart]
    exact restart_touches rt user profile

/-! ### The rows of one port -/

/-- The fingerprint and the user of a supported row. -/
def portRow (node : NodeConfig) (user : PanelUser) : Option (UserFingerprint × Nat) :=
  (fingerprint? node user).map fun fingerprint => (fingerprint, user.userId)

/-- The supported rows of a port, in the order of the loop. -/
def portRows (node : NodeConfig) (rows : List PanelUser) (port : UInt16) :
    List (UserFingerprint × Nat) :=
  (rows.filter fun user => user.port = port).filterMap (portRow node)

theorem portRows_cons (node : NodeConfig) (user : PanelUser) (rows : List PanelUser)
    (port : UInt16) :
    portRows node (user :: rows) port =
      (if user.port = port then (portRow node user).toList else []) ++ portRows node rows port := by
  rw [portRows]
  by_cases hport : user.port = port
  · rw [List.filter_cons_of_pos (by simpa using hport), if_pos hport, List.filterMap_cons]
    cases portRow node user with
    | none => rfl
    | some fingerprint => rfl
  · rw [List.filter_cons_of_neg (by simpa using hport), if_neg hport]
    rfl

/-- The listeners of a port are new ones. -/
structure Renewed (port : UInt16) (rt rt' : BackendRuntime) : Prop where
  actions_lt : rt.config.node.tcpEnabled ∨ rt.config.node.udpEnabled →
    rt.actions.length < rt'.actions.length
  entry : ∃ active, rt'.activeUsers[port]? = some active ∧
    active.tcp.isSome = rt.config.node.tcpEnabled ∧
    active.udp.isSome = rt.config.node.udpEnabled ∧
    ∀ task ∈ active.tasks, rt.nextTask ≤ task.id ∧ task.id < rt'.nextTask

theorem restart_renewed (rt : BackendRuntime) (user : PanelUser) (profile : Profile) :
    Renewed user.port rt (rt.restart user profile) := by
  have hfresh := rt.restart_fresh user profile
  refine ⟨?_, rt.restarted user profile, ?_, hfresh.tcp_isSome, hfresh.udp_isSome, ?_⟩
  · intro henabled
    rw [restart_actions, List.length_append, List.length_map]
    have hle := (rt.removePort_touches user.port).actions_length
    rw [← hfresh.tcp_isSome, ← hfresh.udp_isSome] at henabled
    have hpos := List.length_pos_of_ne_nil (tasks_ne_nil henabled)
    omega
  · rw [restart_entry, if_pos rfl]
  · intro task hmem
    exact ⟨hfresh.next_le task hmem, hfresh.lt_next task hmem⟩

theorem Renewed.of_touches {ports : UInt16 → Prop} {port : UInt16} {rt rt' rt'' : BackendRuntime}
    (h : Touches ports rt rt') (h' : Renewed port rt' rt'') : Renewed port rt rt'' := by
  obtain ⟨active, hentry, htcp, hudp, hids⟩ := h'.entry
  have hlt := h'.actions_lt
  rw [h.config_eq] at htcp hudp hlt
  refine ⟨?_, active, hentry, htcp, hudp, ?_⟩
  · intro henabled
    exact Nat.lt_of_le_of_lt h.actions_length (hlt henabled)
  · intro task hmem
    exact ⟨Nat.le_trans h.next_le (hids task hmem).1, (hids task hmem).2⟩

theorem Renewed.touches {ports : UInt16 → Prop} {port : UInt16} {rt rt' rt'' : BackendRuntime}
    (h : Renewed port rt rt') (h' : Touches ports rt' rt'') (hport : ¬ports port) :
    Renewed port rt rt'' := by
  obtain ⟨active, hentry, htcp, hudp, hids⟩ := h.entry
  refine ⟨?_, active, (h'.entry_eq port hport).trans hentry, htcp, hudp, ?_⟩
  · intro henabled
    exact Nat.lt_of_lt_of_le (h.actions_lt henabled) h'.actions_length
  · intro task hmem
    exact ⟨(hids task hmem).1, Nat.lt_of_lt_of_le (hids task hmem).2 h'.next_le⟩

/-- The rows of a port leave its listeners alone, or one of them renews them. -/
theorem ensureListeners_port (rows : List PanelUser) (port : UInt16) (rt : BackendRuntime) :
    ((∀ row ∈ portRows rt.config.node rows port, rt.fingerprintAt port = some row.1) →
      Touches (· ≠ port) rt (rows.foldl ensureListener rt)) ∧
    ((∃ row ∈ portRows rt.config.node rows port, rt.fingerprintAt port ≠ some row.1) →
      Renewed port rt (rows.foldl ensureListener rt)) := by
  induction rows generalizing rt with
  | nil =>
      refine ⟨fun _ => .refl rt, ?_⟩
      intro hother
      obtain ⟨row, hrow, -⟩ := hother
      cases hrow
  | cons user rows ih =>
      obtain ⟨ihkept, ihrenewed⟩ := ih (rt.ensureListener user)
      have htouch := ensureListener_touches rt user
      rw [htouch.config_eq] at ihkept ihrenewed
      rw [List.foldl_cons, portRows_cons]
      by_cases hport : user.port = port
      · subst hport
        rw [if_pos rfl]
        rcases ensureListener_cases rt user with ⟨hkept, hagrees⟩ | ⟨profile, hsome, hne, hrestart⟩
        · -- The row agrees with the entry, or is unsupported: nothing has changed.
          rw [hkept] at ihkept ihrenewed ⊢
          refine ⟨fun hall => ihkept fun row hrow => hall row (List.mem_append_right _ hrow), ?_⟩
          intro hother
          obtain ⟨row, hrow, hne⟩ := hother
          cases List.mem_append.mp hrow with
          | inr hrow => exact ihrenewed ⟨row, hrow, hne⟩
          | inl hrow =>
              obtain ⟨fingerprint, hsome, rfl⟩ := Option.map_eq_some_iff.mp (Option.mem_toList.mp hrow)
              exact absurd (hagrees fingerprint hsome) hne
        · -- The row replaces the entry; the rows after it may do so again.
          rw [hrestart] at htouch ihkept ihrenewed ⊢
          rw [portRow, hsome]
          refine ⟨fun hall => absurd (hall _ (List.mem_cons_self ..)) hne, fun _ => ?_⟩
          have hrenewed := restart_renewed rt user profile
          by_cases hall : ∀ row ∈ portRows rt.config.node rows user.port,
              (rt.restart user profile).fingerprintAt user.port = some row.1
          · exact hrenewed.touches (ihkept hall) (fun h => h rfl)
          · have hother : ∃ row ∈ portRows rt.config.node rows user.port,
                (rt.restart user profile).fingerprintAt user.port ≠ some row.1 := by
              simpa using hall
            exact .of_touches htouch (ihrenewed hother)
      · have hother : Touches (· ≠ port) rt (rt.ensureListener user) :=
          htouch.mono fun other heq => by rw [heq]; exact hport
        rw [hother.fingerprintAt_eq fun h => h rfl] at ihkept ihrenewed
        rw [if_neg hport, List.nil_append]
        exact ⟨fun hall => hother.trans (ihkept hall), fun hne => .of_touches hother (ihrenewed hne)⟩

theorem ensureListener_fingerprintAt (rt : BackendRuntime) (user : PanelUser) (port : UInt16) :
    (rt.ensureListener user).fingerprintAt port =
      (if user.port = port then fingerprint? rt.config.node user else none).or
        (rt.fingerprintAt port) := by
  by_cases hport : user.port = port
  · subst hport
    rw [if_pos rfl]
    rcases ensureListener_cases rt user with ⟨hkept, hagrees⟩ | ⟨profile, hsome, -, hrestart⟩
    · rw [hkept]
      cases hsome : fingerprint? rt.config.node user with
      | none => rfl
      | some fingerprint => exact hagrees fingerprint hsome
    · rw [hrestart, hsome, fingerprintAt, restart_entry, if_pos rfl]
      rfl
  · rw [if_neg hport]
    exact (ensureListener_touches rt user).fingerprintAt_eq fun heq => hport heq.symm

/-- The last supported row of a port decides. -/
theorem ensureListeners_fingerprintAt (rows : List PanelUser) (port : UInt16)
    (rt : BackendRuntime) :
    (rows.foldl ensureListener rt).fingerprintAt port =
      ((portRows rt.config.node rows port).getLast?.map Prod.fst).or (rt.fingerprintAt port) := by
  induction rows generalizing rt with
  | nil => rfl
  | cons user rows ih =>
      rw [List.foldl_cons, ih, (ensureListener_touches rt user).config_eq,
        ensureListener_fingerprintAt, portRows_cons, List.getLast?_append, Option.map_or,
        Option.or_assoc]
      congr 2
      by_cases hport : user.port = port
      · rw [if_pos hport, if_pos hport, portRow]
        cases fingerprint? rt.config.node user with
        | none => rfl
        | some fingerprint => rfl
      · rw [if_neg hport, if_neg hport]
        rfl

/-- The entry of a port has no task. -/
def Idle (port : UInt16) (rt : BackendRuntime) : Prop :=
  ∀ active, rt.activeUsers[port]? = some active → active.tasks = []

/-- With both kinds of listeners off, the rows of a port without tasks do nothing. -/
theorem ensureListener_idle {rt : BackendRuntime} {port : UInt16} (hidle : Idle port rt)
    (htcp : rt.config.node.tcpEnabled = false) (hudp : rt.config.node.udpEnabled = false)
    (user : PanelUser) :
    Idle port (rt.ensureListener user) ∧ Silent port rt (rt.ensureListener user) := by
  by_cases hport : user.port = port
  · subst hport
    rcases ensureListener_cases rt user with ⟨hkept, -⟩ | ⟨profile, -, -, hrestart⟩
    · rw [hkept]
      exact ⟨hidle, .refl user.port rt⟩
    · have hfresh := rt.restart_fresh user profile
      have htasks : (rt.restarted user profile).tasks = [] :=
        tasks_eq_nil (hfresh.tcp_isSome.trans htcp) (hfresh.udp_isSome.trans hudp)
      have hremoved : (rt.removePort user.port).actions = rt.actions := by
        rw [removePort]
        cases hentry : rt.activeUsers[user.port]? with
        | none => rfl
        | some active =>
            change rt.actions ++ active.stop user.port = rt.actions
            rw [ActiveUser.stop, hidle active hentry]
            exact List.append_nil _
      rw [hrestart]
      refine ⟨?_, [], ?_, fun _ h => nomatch h⟩
      · intro active hentry
        rw [restart_entry, if_pos rfl] at hentry
        cases hentry
        exact htasks
      · rw [restart_actions, hremoved, htasks, List.map_nil]
  · have htouch : Touches (· ≠ port) rt (rt.ensureListener user) :=
      (ensureListener_touches rt user).mono fun other heq => by rw [heq]; exact hport
    refine ⟨?_, htouch.silent fun h => h rfl⟩
    intro active hentry
    rw [htouch.entry_eq port fun h => h rfl] at hentry
    exact hidle active hentry

theorem ensureListeners_silent {rt : BackendRuntime} {port : UInt16} (hidle : Idle port rt)
    (htcp : rt.config.node.tcpEnabled = false) (hudp : rt.config.node.udpEnabled = false)
    (rows : List PanelUser) : Silent port rt (rows.foldl ensureListener rt) := by
  induction rows generalizing rt with
  | nil => exact .refl port rt
  | cons user rows ih =>
      obtain ⟨hnext, hsilent⟩ := ensureListener_idle hidle htcp hudp user
      have hconfig := (ensureListener_touches rt user).config_eq
      rw [← hconfig] at htcp hudp
      exact hsilent.trans (ih hnext htcp hudp)

/-! ### The selected rows -/

def isCarrier (user : PanelUser) : Bool := user.isMultiUser ≠ 0

/-- The rows that are selected for a port: with carriers only the first carrier row. -/
def selectedRows (users : List PanelUser) (port : UInt16) : List PanelUser :=
  if users.any isCarrier then
    (users.find? fun user => isCarrier user ∧ user.port = port).toList
  else users.filter fun user => user.port = port

/-- The row that a port is to be served for: the last supported one. -/
def keptRow (node : NodeConfig) (users : List PanelUser) (port : UInt16) : Option PanelUser :=
  (selectedRows users port).reverse.find? fun user => (fingerprint? node user).isSome

theorem mergeCarrierUsers_port (users : List PanelUser) (port : UInt16) :
    (mergeCarrierUsers users).filter (fun user => user.port = port) =
      (users.find? fun user => user.port = port).toList := by
  suffices hkept : ∀ kept : List PanelUser,
      (users.foldl (fun kept user =>
        if kept.any fun existing => existing.port = user.port then kept else kept ++ [user])
        kept).filter (fun user => user.port = port) =
      if kept.any fun existing => existing.port = port then
        kept.filter fun user => user.port = port
      else (users.find? fun user => user.port = port).toList from hkept []
  induction users with
  | nil =>
      intro kept
      by_cases hany : kept.any fun existing => existing.port = port
      · rw [if_pos hany]
        rfl
      · rw [if_neg hany]
        exact List.filter_eq_nil_iff.mpr fun user hmem hport =>
          hany (List.any_eq_true.mpr ⟨user, hmem, hport⟩)
  | cons user users ih =>
      intro kept
      rw [List.foldl_cons, ih, List.find?_cons]
      by_cases hport : user.port = port
      · subst hport
        by_cases hany : kept.any fun existing => existing.port = user.port
        · rw [if_pos hany, if_pos hany, if_pos hany]
        · have hnil : kept.filter (fun existing => existing.port = user.port) = [] :=
            List.filter_eq_nil_iff.mpr fun existing hmem hport =>
              hany (List.any_eq_true.mpr ⟨existing, hmem, hport⟩)
          simp [hany, hnil]
      · by_cases hother : kept.any fun existing => existing.port = user.port
        · simp [hother, hport]
        · simp [hother, hport]

theorem listenerUsers_carrier {users : List PanelUser} (hany : users.any isCarrier) :
    listenerUsers users = mergeCarrierUsers (users.filter isCarrier) :=
  if_pos hany

theorem listenerUsers_ordinary {users : List PanelUser} (hany : ¬users.any isCarrier) :
    listenerUsers users = users := by
  refine (if_neg hany).trans (List.filter_eq_self.mpr ?_)
  intro user hmem
  by_contra hcarrier
  apply hany
  rw [List.any_eq_true]
  exact ⟨user, hmem, by simpa [isCarrier] using hcarrier⟩

theorem listenerUsers_port (users : List PanelUser) (port : UInt16) :
    (listenerUsers users).filter (fun user => user.port = port) = selectedRows users port := by
  by_cases hany : users.any isCarrier
  · rw [listenerUsers_carrier hany, mergeCarrierUsers_port, selectedRows, if_pos hany,
      List.find?_filter]
    congr 2
    funext user
    simp
  · rw [listenerUsers_ordinary hany, selectedRows, if_neg hany]

/-- The row of a port that is kept is the last one of the loop. -/
theorem portRows_getLast? (node : NodeConfig) (users : List PanelUser) (port : UInt16) :
    (portRows node (listenerUsers users) port).getLast? =
      (keptRow node users port).bind (portRow node) := by
  rw [portRows, listenerUsers_port, keptRow, List.getLast?_filterMap]
  generalize (selectedRows users port).reverse = rows
  induction rows with
  | nil => rfl
  | cons user rows ih =>
      rw [List.findSome?_cons, List.find?_cons, portRow]
      cases hsome : fingerprint? node user with
      | none => exact ih
      | some fingerprint => simp [portRow, hsome]

/-! ### A whole poll -/

theorem removePort_entry (rt : BackendRuntime) (port other : UInt16) :
    (rt.removePort port).activeUsers[other]? =
      if port = other then none else rt.activeUsers[other]? := by
  by_cases heq : port = other
  · subst heq
    rw [if_pos rfl, removePort]
    cases hentry : rt.activeUsers[port]? with
    | none => exact hentry
    | some active => exact Std.HashMap.getElem?_erase_self
  · rw [if_neg heq]
    exact (rt.removePort_touches port).entry_eq other fun h => heq h.symm

theorem removePorts_entry (ports : List UInt16) (rt : BackendRuntime) (port : UInt16) :
    (ports.foldl removePort rt).activeUsers[port]? =
      if port ∈ ports then none else rt.activeUsers[port]? := by
  induction ports generalizing rt with
  | nil => rw [if_neg List.not_mem_nil, List.foldl_nil]
  | cons first ports ih =>
      rw [List.foldl_cons, ih, removePort_entry]
      by_cases hfirst : first = port
      · simp [hfirst]
      · simp [hfirst, Ne.symm hfirst]

theorem removeStalePorts_touches (rt : BackendRuntime) (live : List UInt16) :
    Touches (fun port => port ∉ live ∧ rt.fingerprintAt port ≠ none) rt
      (rt.removeStalePorts live) := by
  apply Touches.foldl
  intro port hmem rt'
  apply (rt'.removePort_touches port).mono
  intro other heq
  subst heq
  obtain ⟨hkey, hstale⟩ := List.mem_filter.mp hmem
  refine ⟨by simpa using hstale, ?_⟩
  rw [fingerprintAt, Std.HashMap.getElem?_eq_some_getElem (Std.HashMap.mem_keys.mp hkey)]
  exact Option.some_ne_none _

theorem removeStalePorts_of_live {rt : BackendRuntime} {live : List UInt16}
    (h : ∀ port ∈ rt.activeUsers, port ∈ live) : rt.removeStalePorts live = rt := by
  rw [removeStalePorts, List.filter_eq_nil_iff.mpr, List.foldl_nil]
  intro port hport
  simpa using h port (Std.HashMap.mem_keys.mp hport)

theorem removeStalePorts_entry (rt : BackendRuntime) (live : List UInt16) (port : UInt16) :
    (rt.removeStalePorts live).activeUsers[port]? =
      if port ∈ live then rt.activeUsers[port]? else none := by
  by_cases hlive : port ∈ live
  · rw [if_pos hlive]
    exact (rt.removeStalePorts_touches live).entry_eq port fun h => h.1 hlive
  · rw [if_neg hlive, removeStalePorts, removePorts_entry]
    by_cases hkey : port ∈ rt.activeUsers
    · rw [if_pos]
      exact List.mem_filter.mpr ⟨Std.HashMap.mem_keys.mpr hkey, by simpa using hlive⟩
    · rw [Std.HashMap.getElem?_eq_none hkey, ite_self]

theorem mem_livePorts (config : Config) (rows : List PanelUser) (port : UInt16) :
    port ∈ livePorts config rows ↔ portRows config.node rows port ≠ [] := by
  have hiff : ∀ user, (Profile.fromUser user config.node).isOk ↔
      portRow config.node user ≠ none := by
    intro user
    rw [portRow, fingerprint?]
    cases Profile.fromUser user config.node with
    | ok profile => simp [Except.isOk, Except.toBool, Except.toOption]
    | error reason => simp [Except.isOk, Except.toBool, Except.toOption]
  rw [livePorts, portRows, ne_eq, List.filterMap_eq_nil_iff, List.mem_map]
  simp only [List.mem_filter, decide_eq_true_eq, not_forall, hiff]
  constructor
  · rintro ⟨user, ⟨hmem, hok⟩, hport⟩
    exact ⟨user, ⟨hmem, hport⟩, hok⟩
  · rintro ⟨user, ⟨hmem, hport⟩, hok⟩
    exact ⟨user, ⟨hmem, hok⟩, hport⟩

variable (P : Primitives) (fromUser : PanelUser → UserPolicy)

theorem registerUsers_touches (users : List PanelUser) (acc : BackendRuntime × UserTables) :
    Touches (fun _ => False) acc.1 (users.foldl (registerUser P fromUser) acc).1 := by
  induction users generalizing acc with
  | nil => exact .refl acc.1
  | cons user users ih =>
      have hfirst : Touches (fun _ => False) acc.1 (registerUser P fromUser acc user).1 :=
        ⟨rfl, Nat.le_refl _, ⟨[], (List.append_nil _).symm, fun _ h => nomatch h⟩, fun _ _ => rfl⟩
      exact hfirst.trans (ih (registerUser P fromUser acc user))

theorem publishTables_touches (users : List PanelUser) (rt : BackendRuntime) :
    Touches (fun _ => False) rt (publishTables P fromUser users rt) := by
  have h := registerUsers_touches P fromUser users (rt, .empty)
  exact ⟨h.config_eq, h.next_le, h.actions_eq, h.entry_eq⟩

theorem removeStaleUsers_touches (rt : BackendRuntime) (users : List PanelUser) :
    Touches (fun _ => False) rt (rt.removeStaleUsers users) := by
  have h : Touches (fun _ => False) rt rt := .refl rt
  exact ⟨h.config_eq, h.next_le, h.actions_eq, h.entry_eq⟩

theorem cleanup_touches (rt : BackendRuntime) (users : List PanelUser) (live : List UInt16) :
    Touches (fun port => port ∉ live ∧ rt.fingerprintAt port ≠ none) rt
      ((rt.removeStalePorts live).removeStaleUsers users) := by
  apply (removeStalePorts_touches rt live).trans
  exact (removeStaleUsers_touches (rt.removeStalePorts live) users).mono fun _ => False.elim

theorem cleanup_fingerprintAt (rt : BackendRuntime) (users : List PanelUser)
    (live : List UInt16) (port : UInt16) :
    ((rt.removeStalePorts live).removeStaleUsers users).fingerprintAt port =
      if port ∈ live then rt.fingerprintAt port else none := by
  rw [(removeStaleUsers_touches (rt.removeStalePorts live) users).fingerprintAt_eq not_false,
    fingerprintAt, removeStalePorts_entry]
  by_cases hlive : port ∈ live
  · rw [if_pos hlive, if_pos hlive]
    rfl
  · rw [if_neg hlive, if_neg hlive]
    rfl

theorem ensureListeners_touches (rows : List PanelUser) (rt : BackendRuntime) :
    Touches (fun _ => True) rt (rows.foldl ensureListener rt) := by
  apply Touches.foldl
  intro user _ rt
  exact (ensureListener_touches rt user).mono fun _ _ => trivial

/-- What a poll does to the listeners of a port. -/
theorem applyUsers_port (users : List PanelUser) (rt : BackendRuntime) (port : UInt16) :
    let rows := portRows rt.config.node (listenerUsers users) port
    let rt' := applyUsers P fromUser users rt
    rt'.fingerprintAt port = rows.getLast?.map Prod.fst ∧
      ((∀ row ∈ rows, rt.fingerprintAt port = some row.1) →
        (rows = [] → rt.fingerprintAt port = none) → Touches (· ≠ port) rt rt') ∧
      ((∃ row ∈ rows, rt.fingerprintAt port ≠ some row.1) → Renewed port rt rt') := by
  have hpublish := publishTables_touches P fromUser users rt
  have hconfig := ensureListeners_touches (listenerUsers users) (publishTables P fromUser users rt)
  obtain ⟨hkept, hrenewed⟩ := ensureListeners_port (listenerUsers users) port
    (publishTables P fromUser users rt)
  have hprint := ensureListeners_fingerprintAt (listenerUsers users) port
    (publishTables P fromUser users rt)
  rw [hpublish.config_eq, hpublish.fingerprintAt_eq not_false] at hkept hrenewed hprint
  dsimp only
  rw [applyUsers, hconfig.config_eq, hpublish.config_eq]
  generalize (listenerUsers users).foldl ensureListener (publishTables P fromUser users rt) =
    ensured at hkept hrenewed hprint ⊢
  have hlive := mem_livePorts rt.config (listenerUsers users) port
  have hclean := cleanup_touches ensured users (livePorts rt.config (listenerUsers users))
  generalize portRows rt.config.node (listenerUsers users) port = rows
    at hkept hrenewed hprint hlive ⊢
  refine ⟨?_, ?_, ?_⟩
  · rw [cleanup_fingerprintAt]
    by_cases hnil : rows = []
    · rw [if_neg fun h => hlive.mp h hnil, hnil]
      rfl
    · rw [if_pos (hlive.mpr hnil), hprint]
      cases hlast : rows.getLast? with
      | none => exact absurd (List.getLast?_eq_none_iff.mp hlast) hnil
      | some row => rfl
  · intro hall hnone
    refine (hpublish.mono fun _ => False.elim).trans ((hkept hall).trans (hclean.mono ?_))
    intro other hstale heq
    subst heq
    apply hstale.1
    rw [hlive]
    intro hnil
    apply hstale.2
    rw [hprint, hnil, hnone hnil]
    rfl
  · intro hother
    obtain ⟨row, hrow, hne⟩ := hother
    have hport := hlive.mpr (List.ne_nil_of_mem hrow)
    exact .of_touches hpublish ((hrenewed ⟨row, hrow, hne⟩).touches hclean fun h => h.1 hport)

/-- A poll removes a port without supported rows, and keeps or renews the listeners of another. -/
theorem applyUsers_cases (users : List PanelUser) (rt : BackendRuntime) (port : UInt16) :
    let rows := portRows rt.config.node (listenerUsers users) port
    let rt' := applyUsers P fromUser users rt
    (rows = [] ∧ rt'.activeUsers[port]? = none) ∨
    (rows ≠ [] ∧ (∀ row ∈ rows, rt.fingerprintAt port = some row.1) ∧ Touches (· ≠ port) rt rt') ∨
    ((∃ row ∈ rows, rt.fingerprintAt port ≠ some row.1) ∧ Renewed port rt rt') := by
  obtain ⟨hprint, hkept, hrenewed⟩ := applyUsers_port P fromUser users rt port
  intro rows rt'
  by_cases hnil : rows = []
  · have hlast : rows.getLast? = none := List.getLast?_eq_none_iff.mpr hnil
    exact Or.inl ⟨hnil, Option.map_eq_none_iff.mp (hprint.trans (congrArg _ hlast))⟩
  · by_cases hall : ∀ row ∈ rows, rt.fingerprintAt port = some row.1
    · exact Or.inr (Or.inl ⟨hnil, hall, hkept hall fun h => absurd h hnil⟩)
    · push Not at hall
      exact Or.inr (Or.inr ⟨hall, hrenewed hall⟩)

theorem applyUsers_touches (users : List PanelUser) (rt : BackendRuntime) :
    Touches (fun _ => True) rt (applyUsers P fromUser users rt) := by
  have hpublish := publishTables_touches P fromUser users rt
  have hloop := ensureListeners_touches (listenerUsers users) (publishTables P fromUser users rt)
  apply (hpublish.mono fun _ => False.elim).trans
  apply hloop.trans
  exact (cleanup_touches _ users _).mono fun _ _ => trivial

theorem applyUsers_silent {users : List PanelUser} {rt : BackendRuntime} {port : UInt16}
    (hidle : Idle port rt) (htcp : rt.config.node.tcpEnabled = false)
    (hudp : rt.config.node.udpEnabled = false)
    (hrows : portRows rt.config.node (listenerUsers users) port ≠ []) :
    Silent port rt (applyUsers P fromUser users rt) := by
  have hpublish := publishTables_touches P fromUser users rt
  have hconfig := (ensureListeners_touches (listenerUsers users)
    (publishTables P fromUser users rt)).config_eq
  rw [hpublish.config_eq] at hconfig
  have hloop : Silent port (publishTables P fromUser users rt)
      ((listenerUsers users).foldl ensureListener (publishTables P fromUser users rt)) := by
    apply ensureListeners_silent
    · intro active hentry
      rw [hpublish.entry_eq port not_false] at hentry
      exact hidle active hentry
    · rw [hpublish.config_eq, htcp]
    · rw [hpublish.config_eq, hudp]
  rw [applyUsers, hconfig]
  have hclean := cleanup_touches
    ((listenerUsers users).foldl ensureListener (publishTables P fromUser users rt)) users
    (livePorts rt.config (listenerUsers users))
  apply (hpublish.silent not_false).trans
  apply hloop.trans
  apply hclean.silent
  intro hstale
  exact hstale.1 ((mem_livePorts rt.config (listenerUsers users) port).mpr hrows)

theorem syncUsers_ok (users : List PanelUser) (rt : BackendRuntime) :
    (syncUsers P fromUser (.ok users)).run rt =
      if rt.config.limits.maxUsers < users.length then
        (.err (.tooManyUsers users.length rt.config.limits.maxUsers), rt)
      else (.ok (), applyUsers P fromUser users rt) := by
  rw [syncUsers]
  by_cases hmax : rt.config.limits.maxUsers < users.length
  · simp [hmax]
  · simp [hmax]

/-- The runtime after a call of `sync_users`. -/
def synced (answer : Except String (List PanelUser)) (rt : BackendRuntime) : BackendRuntime :=
  ((syncUsers P fromUser answer).run rt).2

/-- The calls that fail. -/
def Rejects (answer : Except String (List PanelUser)) (rt : BackendRuntime) : Prop :=
  (∃ reason, answer = .error reason) ∨
    ∃ users, answer = .ok users ∧ rt.config.limits.maxUsers < users.length

theorem synced_rejects {answer : Except String (List PanelUser)} {rt : BackendRuntime}
    (h : Rejects answer rt) :
    synced P fromUser answer rt = rt ∧ ((syncUsers P fromUser answer).run rt).1 ≠ .ok () := by
  rcases h with ⟨reason, rfl⟩ | ⟨users, rfl, hmax⟩
  · exact ⟨rfl, nofun⟩
  · rw [synced, syncUsers_ok, if_pos hmax]
    exact ⟨rfl, nofun⟩

theorem synced_accepts {users : List PanelUser} {rt : BackendRuntime}
    (h : ¬Rejects (.ok users) rt) :
    synced P fromUser (.ok users) rt = applyUsers P fromUser users rt ∧
      ((syncUsers P fromUser (.ok users)).run rt).1 = .ok () := by
  have hmax : ¬rt.config.limits.maxUsers < users.length := fun hmax =>
    h (Or.inr ⟨users, rfl, hmax⟩)
  rw [synced, syncUsers_ok, if_neg hmax]
  exact ⟨rfl, rfl⟩

/-- A call changes nothing, or it applies a list. -/
theorem synced_cases (answer : Except String (List PanelUser)) (rt : BackendRuntime) :
    synced P fromUser answer rt = rt ∨
      ∃ users, answer = .ok users ∧
        synced P fromUser answer rt = applyUsers P fromUser users rt := by
  by_cases hrejects : Rejects answer rt
  · exact Or.inl (synced_rejects P fromUser hrejects).1
  · cases answer with
    | error reason => exact absurd (Or.inl ⟨reason, rfl⟩) hrejects
    | ok users => exact Or.inr ⟨users, rfl, (synced_accepts P fromUser hrejects).1⟩

theorem rejects_iff (answer : Except String (List PanelUser)) (rt : BackendRuntime) :
    ((syncUsers P fromUser answer).run rt).1 ≠ .ok () ↔ Rejects answer rt := by
  refine ⟨?_, fun h => (synced_rejects P fromUser h).2⟩
  intro hfails
  by_contra hnot
  cases answer with
  | error reason => exact hnot (Or.inl ⟨reason, rfl⟩)
  | ok users => exact hfails (synced_accepts P fromUser hnot).2

theorem not_rejects_ok {users : List PanelUser} {rt : BackendRuntime}
    (hmax : ¬rt.config.limits.maxUsers < users.length) : ¬Rejects (.ok users) rt := by
  intro hrejects
  rcases hrejects with ⟨reason, hreason⟩ | ⟨users', husers, hmax'⟩
  · cases hreason
  · cases husers
    exact hmax hmax'

/-! ### A node for the concrete runs -/

def sampleNode : NodeConfig where
  method := "rc4-md5"
  protocol := "auth_aes128_md5"
  obfs := "plain"
  timeoutSecs := 300
  tcpEnabled := true
  udpEnabled := true
  enforceForbidden := true
  enforceConnLimit := true
  auditBlock := true
  enforceSpeed := true

def sampleConfig : Config := ⟨sampleNode, ⟨100, 100, 300, 100, 300, 100, 300⟩⟩

/-- A row without limits that takes its profile from the node. -/
def sampleRow (id : Nat) (port : UInt16) (password : String) (isMultiUser : Int) : PanelUser where
  id := id
  userId? := none
  port := port
  password := password
  method := none
  protocol := none
  obfs := none
  enable := none
  isMultiUser := isMultiUser
  nodeSpeedlimit := none
  nodeConnector := none
  forbiddenIp := none
  forbiddenPort := none

def noLimits (_ : PanelUser) : UserPolicy := ⟨0, 0, [], []⟩

def sampleProfile : Profile := ⟨"rc4-md5", "auth_aes128_md5", "plain", 300⟩

theorem sampleRow_fingerprint (id : Nat) (port : UInt16) (password : String)
    (isMultiUser : Int) :
    fingerprint? sampleNode (sampleRow id port password isMultiUser) =
      some ⟨port, password, sampleProfile, isMultiUser⟩ := by
  have hprofile : Profile.new "rc4-md5" "auth_aes128_md5" "plain" 300 = .ok sampleProfile := by
    decide +kernel
  rw [fingerprint?, Profile.fromUser]
  simp only [sampleRow, sampleNode, Option.getD_none, hprofile]
  rfl

end BackendRuntime

end SsrBackend
