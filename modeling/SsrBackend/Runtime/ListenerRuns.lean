import Mathlib.Data.List.Induction
import SsrBackend.Runtime.Reconciliation

/-!
Listeners over whole runs. A listener task can end by itself, which the
supervisor does not see: it looks at fingerprints alone. A task also keeps the
user it was spawned for, which no fingerprint has.
-/

namespace SsrBackend

/-- The runtime and the numbers of the tasks that have ended by themselves. -/
structure Supervised where
  runtime : BackendRuntime
  ended : List Nat

inductive ListenerEvent where
  | sync (answer : Except String (List PanelUser))
  | fails (task : Nat)

namespace BackendRuntime

variable (P : Primitives) (fromUser : PanelUser → UserPolicy)

/-- Only a task that was spawned can end. -/
def supervise (s : Supervised) : ListenerEvent → Supervised
  | .sync answer => { s with runtime := synced P fromUser answer s.runtime }
  | .fails task =>
      if task < s.runtime.nextTask then { s with ended := task :: s.ended } else s

/-- What the entry of a port is made of. -/
structure Stocked (rt : BackendRuntime) (active : ActiveUser) : Prop where
  tcp_isSome : active.tcp.isSome = rt.config.node.tcpEnabled
  udp_isSome : active.udp.isSome = rt.config.node.udpEnabled
  lt_next : ∀ task ∈ active.tasks, task.id < rt.nextTask

structure Supervises (s : Supervised) : Prop where
  stocked : ∀ (port : UInt16) (active : ActiveUser), s.runtime.activeUsers[port]? = some active →
    Stocked s.runtime active
  ended_lt : ∀ task ∈ s.ended, task < s.runtime.nextTask

theorem Stocked.of_touches {ports : UInt16 → Prop} {rt rt' : BackendRuntime} {active : ActiveUser}
    (h : Stocked rt active) (htouch : Touches ports rt rt') : Stocked rt' active := by
  refine ⟨?_, ?_, ?_⟩
  · rw [htouch.config_eq]
    exact h.tcp_isSome
  · rw [htouch.config_eq]
    exact h.udp_isSome
  · intro task hmem
    exact Nat.lt_of_lt_of_le (h.lt_next task hmem) htouch.next_le

theorem applyUsers_stocked {rt : BackendRuntime}
    (h : ∀ (port : UInt16) (active : ActiveUser), rt.activeUsers[port]? = some active →
      Stocked rt active)
    (users : List PanelUser) (port : UInt16) (active : ActiveUser)
    (hentry : (applyUsers P fromUser users rt).activeUsers[port]? = some active) :
    Stocked (applyUsers P fromUser users rt) active := by
  have htouches := applyUsers_touches P fromUser users rt
  rcases applyUsers_cases P fromUser users rt port with ⟨-, hnone⟩ | ⟨-, -, htouch⟩ | ⟨-, hrenewed⟩
  · rw [hnone] at hentry
    cases hentry
  · rw [htouch.entry_eq port fun h => h rfl] at hentry
    exact (h port active hentry).of_touches htouch
  · obtain ⟨active', hentry', htcp, hudp, hids⟩ := hrenewed.entry
    rw [hentry'] at hentry
    cases hentry
    rw [← htouches.config_eq] at htcp hudp
    exact ⟨htcp, hudp, fun task hmem => (hids task hmem).2⟩

theorem supervise_supervises {s : Supervised} (h : Supervises s) (event : ListenerEvent) :
    Supervises (supervise P fromUser s event) := by
  cases event with
  | sync answer =>
      rw [supervise]
      rcases synced_cases P fromUser answer s.runtime with hsame | ⟨users, -, happly⟩
      · rw [hsame]
        exact h
      · rw [happly]
        refine ⟨applyUsers_stocked P fromUser h.stocked users, ?_⟩
        intro task hmem
        exact Nat.lt_of_lt_of_le (h.ended_lt task hmem) (applyUsers_touches P fromUser users _).next_le
  | fails task =>
      rw [supervise]
      by_cases hspawned : task < s.runtime.nextTask
      · rw [if_pos hspawned]
        refine ⟨h.stocked, ?_⟩
        intro other hmem
        cases List.mem_cons.mp hmem with
        | inl heq => exact heq ▸ hspawned
        | inr hmem => exact h.ended_lt other hmem
      · rw [if_neg hspawned]
        exact h

theorem supervised_run (config : Config) (events : List ListenerEvent) :
    Supervises (Machine.run (supervise P fromUser) ⟨new config, []⟩ events) := by
  have hnew : Supervises ⟨new config, []⟩ := by
    refine ⟨?_, fun task hmem => (nomatch hmem)⟩
    intro port active hentry
    rw [new, Std.HashMap.getElem?_empty] at hentry
    cases hentry
  have hstep : ∀ s event, Supervises s → Supervises (supervise P fromUser s event) :=
    fun s event h => supervise_supervises P fromUser h event
  exact Machine.run_keeps hstep hnew events

/-- The supported rows that are selected for a port have the fingerprint of its entry. -/
def Agrees (rt : BackendRuntime) (users : List PanelUser) (port : UInt16) : Prop :=
  ∀ user ∈ selectedRows users port, ∀ fingerprint,
    fingerprint? rt.config.node user = some fingerprint → rt.fingerprintAt port = some fingerprint

theorem agrees_iff (rt : BackendRuntime) (users : List PanelUser) (port : UInt16) :
    Agrees rt users port ↔
      ∀ row ∈ portRows rt.config.node (listenerUsers users) port,
        rt.fingerprintAt port = some row.1 := by
  rw [portRows, listenerUsers_port]
  constructor
  · intro hagrees row hrow
    obtain ⟨user, huser, hsome⟩ := List.mem_filterMap.mp hrow
    obtain ⟨fingerprint, hprint, rfl⟩ := Option.map_eq_some_iff.mp hsome
    exact hagrees user huser fingerprint hprint
  · intro hall user huser fingerprint hprint
    exact hall (fingerprint, user.userId)
      (List.mem_filterMap.mpr ⟨user, huser, by rw [portRow, hprint]; rfl⟩)

theorem portRows_ne_nil {node : NodeConfig} {users : List PanelUser} {port : UInt16}
    {row : PanelUser} (hkept : keptRow node users port = some row) :
    portRows node (listenerUsers users) port ≠ [] := by
  intro hnil
  have hlast := portRows_getLast? node users port
  rw [hnil, hkept, Option.bind_some, portRow] at hlast
  have hsome := List.find?_some hkept
  obtain ⟨fingerprint, hprint⟩ := Option.isSome_iff_exists.mp hsome
  rw [hprint] at hlast
  cases hlast

theorem entry_of_agrees {rt : BackendRuntime} {port : UInt16}
    {rows : List (UserFingerprint × Nat)} (hne : rows ≠ [])
    (hall : ∀ row ∈ rows, rt.fingerprintAt port = some row.1) :
    ∃ active, rt.activeUsers[port]? = some active := by
  obtain ⟨row, hrow⟩ := List.exists_mem_of_ne_nil rows hne
  obtain ⟨active, hactive, -⟩ := Option.map_eq_some_iff.mp (hall row hrow)
  exact ⟨active, hactive⟩

/-- After a successful poll the listeners of a served port are the ones it had, ended or not, if
its rows agree with its entry, and else listeners that were spawned in the poll. -/
theorem listeners_after_sync (config : Config) (events : List ListenerEvent)
    (users : List PanelUser) :
    let s := Machine.run (supervise P fromUser) ⟨new config, []⟩ events
    let rt' := synced P fromUser (.ok users) s.runtime
    ¬Rejects (.ok users) s.runtime → ∀ port row,
      keptRow s.runtime.config.node users port = some row →
      ∃ active, rt'.activeUsers[port]? = some active ∧
        active.tcp.isSome = s.runtime.config.node.tcpEnabled ∧
        active.udp.isSome = s.runtime.config.node.udpEnabled ∧
        (Agrees s.runtime users port → s.runtime.activeUsers[port]? = some active) ∧
        (¬Agrees s.runtime users port → ∀ task ∈ active.tasks,
          s.runtime.nextTask ≤ task.id ∧ task.id ∉ s.ended) := by
  intro s rt' hok port row hkept
  have hs := supervised_run P fromUser config events
  have hrt : rt' = applyUsers P fromUser users s.runtime := (synced_accepts P fromUser hok).1
  rw [agrees_iff, hrt]
  rcases applyUsers_cases P fromUser users s.runtime port with
    ⟨hnil, -⟩ | ⟨-, hall, htouch⟩ | ⟨⟨other, hother, hne⟩, hrenewed⟩
  · exact absurd hnil (portRows_ne_nil hkept)
  · have hentry := htouch.entry_eq port fun h => h rfl
    obtain ⟨active, hactive⟩ := (entry_of_agrees (portRows_ne_nil hkept) hall)
    have hstocked := hs.stocked port active hactive
    exact ⟨active, hentry.trans hactive, hstocked.tcp_isSome, hstocked.udp_isSome,
      fun _ => hactive, fun h => absurd hall h⟩
  · obtain ⟨active, hactive, htcp, hudp, hids⟩ := hrenewed.entry
    refine ⟨active, hactive, htcp, hudp, fun h => absurd (h other hother) hne, ?_⟩
    intro _ task hmem
    refine ⟨(hids task hmem).1, ?_⟩
    intro hended
    exact Nat.lt_irrefl _ (Nat.lt_of_lt_of_le (hs.ended_lt task.id hended) (hids task hmem).1)

section Sample

variable (id : Nat) (port : UInt16) (password : String)

theorem sample_selectedRows :
    selectedRows [sampleRow id port password 0] port = [sampleRow id port password 0] := by
  have hany : ¬[sampleRow id port password 0].any isCarrier := by
    simp [isCarrier, sampleRow]
  have hport : (sampleRow id port password 0).port = port := rfl
  rw [selectedRows, if_neg hany]
  simp [hport]

theorem sample_keptRow :
    keptRow sampleNode [sampleRow id port password 0] port =
      some (sampleRow id port password 0) := by
  rw [keptRow, sample_selectedRows]
  simp [sampleRow_fingerprint]

theorem sample_portRows :
    portRows sampleNode (listenerUsers [sampleRow id port password 0]) port =
      [(⟨port, password, sampleProfile, 0⟩, id)] := by
  rw [portRows, listenerUsers_port, sample_selectedRows, List.filterMap_cons, portRow,
    sampleRow_fingerprint]
  rfl

end Sample

theorem sample_first (id : Nat) :
    synced .standard noLimits (.ok [sampleRow id 443 "a" 0]) (new sampleConfig) =
      applyUsers .standard noLimits [sampleRow id 443 "a" 0] (new sampleConfig) :=
  (synced_accepts .standard noLimits (not_rejects_ok (by rw [List.length_singleton]; decide))).1

/-- The first poll of one row spawns listeners for its port. -/
theorem sample_spawned (id : Nat) : ∃ (active : ActiveUser) (task : ListenerTask),
    (applyUsers .standard noLimits [sampleRow id 443 "a" 0]
      (new sampleConfig)).activeUsers[(443 : UInt16)]? = some active ∧
    task ∈ active.tasks ∧
    task.id < (applyUsers .standard noLimits [sampleRow id 443 "a" 0] (new sampleConfig)).nextTask := by
  have hrows : portRows (new sampleConfig).config.node
      (listenerUsers [sampleRow id 443 "a" 0]) 443 =
      [(⟨443, "a", sampleProfile, 0⟩, id)] := sample_portRows id 443 "a"
  have hrenewed := (applyUsers_port .standard noLimits [sampleRow id 443 "a" 0]
    (new sampleConfig) 443).2.2
  rw [hrows] at hrenewed
  have hnew : (new sampleConfig).fingerprintAt 443 = none := by
    rw [fingerprintAt, new, Std.HashMap.getElem?_empty]
    rfl
  obtain ⟨active, hactive, htcp, -, hids⟩ :=
    (hrenewed ⟨_, List.mem_cons_self .., by rw [hnew]; rintro ⟨⟩⟩).entry
  obtain ⟨task, htask⟩ := Option.isSome_iff_exists.mp htcp
  have hmem : task ∈ active.tasks := by
    rw [ActiveUser.tasks, htask]
    exact List.mem_append_left _ (List.mem_singleton_self task)
  exact ⟨active, task, hactive, hmem, (hids task hmem).2⟩

/-- A row that differs from the one of the first poll in its user only agrees with the port. -/
theorem sample_agrees (id id' : Nat) :
    Agrees (applyUsers .standard noLimits [sampleRow id 443 "a" 0] (new sampleConfig))
      [sampleRow id' 443 "a" 0] 443 := by
  have hprint := (applyUsers_port .standard noLimits [sampleRow id 443 "a" 0]
    (new sampleConfig) 443).1
  have hrows : portRows (new sampleConfig).config.node
      (listenerUsers [sampleRow id 443 "a" 0]) 443 =
      [(⟨443, "a", sampleProfile, 0⟩, id)] := sample_portRows id 443 "a"
  have hrows' : portRows sampleNode (listenerUsers [sampleRow id' 443 "a" 0]) 443 =
      [(⟨443, "a", sampleProfile, 0⟩, id')] := sample_portRows id' 443 "a"
  rw [hrows] at hprint
  rw [agrees_iff, (applyUsers_touches .standard noLimits _ (new sampleConfig)).config_eq,
    show (new sampleConfig).config.node = sampleNode from rfl, hrows']
  intro row hrow
  rw [List.mem_singleton.mp hrow]
  exact hprint

/-- The poll of that row leaves the listeners of the port as they are. -/
theorem sample_keeps (id id' : Nat) :
    (synced .standard noLimits (.ok [sampleRow id' 443 "a" 0]) (applyUsers .standard noLimits
      [sampleRow id 443 "a" 0] (new sampleConfig))).activeUsers[(443 : UInt16)]? =
    (applyUsers .standard noLimits [sampleRow id 443 "a" 0]
      (new sampleConfig)).activeUsers[(443 : UInt16)]? := by
  have hagrees := sample_agrees id id'
  have hconfig := (applyUsers_touches .standard noLimits [sampleRow id 443 "a" 0]
    (new sampleConfig)).config_eq
  generalize applyUsers .standard noLimits [sampleRow id 443 "a" 0] (new sampleConfig) = rt
    at hagrees hconfig ⊢
  have hnode : rt.config.node = sampleNode := congrArg Config.node hconfig
  rw [agrees_iff] at hagrees
  have htouch := (applyUsers_port .standard noLimits [sampleRow id' 443 "a" 0] rt 443).2.1 hagrees
    fun hnil => absurd hnil (portRows_ne_nil (hnode ▸ sample_keptRow id' 443 "a"))
  rw [(synced_accepts .standard noLimits
    (not_rejects_ok (by rw [hconfig, List.length_singleton]; decide))).1]
  exact htouch.entry_eq 443 fun h => h rfl

/-- The run of a poll and the failure of a listener that it has spawned. -/
theorem sample_fails (id : Nat) {task : Nat}
    (h : task < (applyUsers .standard noLimits [sampleRow id 443 "a" 0]
      (new sampleConfig)).nextTask) :
    Machine.run (supervise .standard noLimits) ⟨new sampleConfig, []⟩
      [.sync (.ok [sampleRow id 443 "a" 0]), .fails task] =
        ⟨applyUsers .standard noLimits [sampleRow id 443 "a" 0] (new sampleConfig), [task]⟩ := by
  rw [Machine.run_cons, Machine.run_cons, Machine.run_nil, supervise, supervise, sample_first,
    if_pos h]

/-- A listener that has failed since the poll that spawned it is among those of its port that the
next poll keeps. -/
theorem listeners_after_sync_sample :
    ∃ (active : ActiveUser) (task : ListenerTask),
      let s := Machine.run (supervise .standard noLimits) ⟨new sampleConfig, []⟩
        [.sync (.ok [sampleRow 1 443 "a" 0]), .fails task.id]
      task ∈ active.tasks ∧ task.id ∈ s.ended ∧
        s.runtime.activeUsers[(443 : UInt16)]? = some active ∧
        (synced .standard noLimits (.ok [sampleRow 2 443 "a" 0])
          s.runtime).activeUsers[(443 : UInt16)]? = some active ∧
        active.udp.isSome = true := by
  obtain ⟨active, task, hactive, hmem, hspawned⟩ := sample_spawned 1
  have hrun := sample_fails 1 hspawned
  have hconfig := (applyUsers_touches .standard noLimits [sampleRow 1 443 "a" 0]
    (new sampleConfig)).config_eq
  have hspec := listeners_after_sync .standard noLimits sampleConfig
    [.sync (.ok [sampleRow 1 443 "a" 0]), .fails task.id] [sampleRow 2 443 "a" 0]
  rw [hrun] at hspec
  dsimp only at hspec
  rw [hconfig] at hspec
  obtain ⟨active', hactive', -, hudp, hkeeps, -⟩ := hspec (not_rejects_ok (by rw [hconfig]; decide))
    443 (sampleRow 2 443 "a" 0) (sample_keptRow 2 443 "a")
  have hsame := hkeeps (sample_agrees 1 2)
  rw [hactive] at hsame
  cases hsame
  refine ⟨active, task, hmem, ?_⟩
  rw [hrun]
  exact ⟨List.mem_singleton_self task.id, hactive, hactive', hudp⟩

/-- A listener ends between two polls with one list, and the second poll leaves it so. -/
theorem ended_listener_stays :
    ∃ task : ListenerTask,
      let s := Machine.run (supervise .standard noLimits) ⟨new sampleConfig, []⟩
        [.sync (.ok [sampleRow 1 443 "a" 0]), .fails task.id]
      ∃ active, (synced .standard noLimits (.ok [sampleRow 1 443 "a" 0])
          s.runtime).activeUsers[(443 : UInt16)]? = some active ∧
        task ∈ active.tasks ∧ task.id ∈ s.ended := by
  obtain ⟨active, task, hactive, hmem, hspawned⟩ := sample_spawned 1
  refine ⟨task, active, ?_, hmem, ?_⟩
  · rw [sample_fails 1 hspawned]
    exact (sample_keeps 1 1).trans hactive
  · rw [sample_fails 1 hspawned]
    exact List.mem_singleton_self task.id

/-! ### The user a listener falls back to -/

/-- A row takes over from the one before it, unless the fingerprint is the same. -/
def lead (cur : Option (UserFingerprint × Nat)) (row : UserFingerprint × Nat) :
    Option (UserFingerprint × Nat) :=
  if cur.map Prod.fst = some row.1 then cur else some row

/-- The first of the last rows that share a fingerprint. -/
def leader (rows : List (UserFingerprint × Nat)) (fingerprint : UserFingerprint) :
    Option (UserFingerprint × Nat) :=
  (rows.reverse.takeWhile fun row => row.1 = fingerprint).getLast?

theorem leader_append (rows : List (UserFingerprint × Nat)) (row : UserFingerprint × Nat) :
    leader (rows ++ [row]) row.1 = (leader rows row.1).or (some row) := by
  rw [leader, List.reverse_append, List.reverse_singleton, List.singleton_append,
    List.takeWhile_cons_of_pos (by simp), List.getLast?_cons, leader]
  cases (rows.reverse.takeWhile fun r => r.1 = row.1).getLast? with
  | none => rfl
  | some first => rfl

theorem leader_of_ne {rows : List (UserFingerprint × Nat)} {row : UserFingerprint × Nat}
    {fingerprint : UserFingerprint} (hne : row.1 ≠ fingerprint) :
    leader (rows ++ [row]) fingerprint = none := by
  rw [leader, List.reverse_append, List.reverse_singleton, List.singleton_append,
    List.takeWhile_cons_of_neg (by simpa using hne)]
  rfl

theorem leader_fst {rows : List (UserFingerprint × Nat)} {fingerprint : UserFingerprint}
    {first : UserFingerprint × Nat} (h : leader rows fingerprint = some first) :
    first.1 = fingerprint := by
  have hmem := List.mem_of_getLast? h
  have hall := List.all_takeWhile (p := fun row : UserFingerprint × Nat => row.1 = fingerprint)
    (l := rows.reverse)
  simpa using List.all_eq_true.mp hall first hmem

/-- The rows of a loop, folded, leave the leader of the last one. -/
theorem foldl_lead (rows : List (UserFingerprint × Nat)) (row : UserFingerprint × Nat) :
    (rows ++ [row]).foldl lead none = leader (rows ++ [row]) row.1 := by
  induction rows using List.reverseRecOn generalizing row with
  | nil => simp [lead, leader]
  | append_singleton rows prev ih =>
      rw [List.foldl_append, ih, leader_append (rows ++ [prev]) row, List.foldl_cons, List.foldl_nil,
        lead]
      by_cases hsame : prev.1 = row.1
      · rw [hsame]
        cases hlead : leader (rows ++ [prev]) row.1 with
        | none =>
            rw [← hsame, leader_append, Option.or_eq_none_iff] at hlead
            exact absurd hlead.2 nofun
        | some first =>
            rw [Option.map_some, if_pos (congrArg some (leader_fst hlead))]
            rfl
      · rw [leader_of_ne hsame]
        cases hlead : leader (rows ++ [prev]) prev.1 with
        | none => rfl
        | some first =>
            rw [if_neg]
            · rfl
            · intro heq
              exact hsame ((leader_fst hlead).symm.trans (Option.some.inj heq))

/-- The entry of a port is the one of a row. -/
structure HeldBy (rt : BackendRuntime) (port : UInt16)
    (cur : Option (UserFingerprint × Nat)) : Prop where
  fingerprint_eq : rt.fingerprintAt port = cur.map Prod.fst
  userId_eq : ∀ active, rt.activeUsers[port]? = some active → ∀ task ∈ active.tasks,
    cur.map Prod.snd = some task.userId

theorem HeldBy.of_touches {rt rt' : BackendRuntime} {port : UInt16}
    {cur : Option (UserFingerprint × Nat)} {ports : UInt16 → Prop} (h : HeldBy rt port cur)
    (htouch : Touches ports rt rt') (hport : ¬ports port) : HeldBy rt' port cur := by
  refine ⟨?_, ?_⟩
  · rw [htouch.fingerprintAt_eq hport]
    exact h.fingerprint_eq
  · rw [htouch.entry_eq port hport]
    exact h.userId_eq

theorem ensureListener_heldBy {rt : BackendRuntime} {port : UInt16}
    {cur : Option (UserFingerprint × Nat)} (h : HeldBy rt port cur) (user : PanelUser) :
    HeldBy (rt.ensureListener user) port
      ((if user.port = port then (portRow rt.config.node user).toList else []).foldl lead cur) := by
  by_cases hport : user.port = port
  · subst hport
    rw [if_pos rfl]
    rcases ensureListener_cases rt user with ⟨hkept, hagrees⟩ | ⟨profile, hsome, hne, hrestart⟩
    · rw [hkept, portRow]
      cases hprint : fingerprint? rt.config.node user with
      | none => exact h
      | some fingerprint =>
          have hsame : cur.map Prod.fst = some fingerprint :=
            h.fingerprint_eq.symm.trans (hagrees fingerprint hprint)
          rw [Option.map_some, Option.toList_some, List.foldl_cons, List.foldl_nil, lead,
            if_pos hsame]
          exact h
    · rw [hrestart, portRow, hsome, Option.map_some, Option.toList_some, List.foldl_cons,
        List.foldl_nil, lead, if_neg fun heq => hne (h.fingerprint_eq.trans heq)]
      refine ⟨?_, ?_⟩
      · rw [fingerprintAt, restart_entry, if_pos rfl]
        rfl
      · intro active hentry task hmem
        rw [restart_entry, if_pos rfl] at hentry
        cases hentry
        exact congrArg some ((rt.restart_fresh user profile).userId_eq task hmem).symm
  · rw [if_neg hport]
    exact h.of_touches (ensureListener_touches rt user) fun heq => hport heq.symm

theorem ensureListeners_heldBy (rows : List PanelUser) {rt : BackendRuntime} {port : UInt16}
    {cur : Option (UserFingerprint × Nat)} (h : HeldBy rt port cur) :
    HeldBy (rows.foldl ensureListener rt) port
      ((portRows rt.config.node rows port).foldl lead cur) := by
  induction rows generalizing rt cur with
  | nil => exact h
  | cons user rows ih =>
      have hnext := ih (ensureListener_heldBy h user)
      rw [(ensureListener_touches rt user).config_eq] at hnext
      rw [portRows_cons, List.foldl_append]
      exact hnext

theorem applyUsers_heldBy {users : List PanelUser} {rt : BackendRuntime} {port : UInt16}
    {cur : Option (UserFingerprint × Nat)} (h : HeldBy rt port cur)
    (hne : portRows rt.config.node (listenerUsers users) port ≠ []) :
    HeldBy (applyUsers P fromUser users rt) port
      ((portRows rt.config.node (listenerUsers users) port).foldl lead cur) := by
  have hpublish := publishTables_touches P fromUser users rt
  have hconfig := (ensureListeners_touches (listenerUsers users)
    (publishTables P fromUser users rt)).config_eq
  have hloop := ensureListeners_heldBy (listenerUsers users) (h.of_touches hpublish not_false)
  rw [hpublish.config_eq] at hloop hconfig
  rw [applyUsers, hconfig]
  apply hloop.of_touches (cleanup_touches _ users _)
  intro hstale
  exact hstale.1 ((mem_livePorts rt.config (listenerUsers users) port).mpr hne)

/-- The tasks of a port, as rows. -/
def running (rt : BackendRuntime) (port : UInt16) : List (UserFingerprint × Nat) :=
  (rt.activeUsers[port]?).toList.flatMap fun active =>
    active.tasks.map fun task => (active.fingerprint, task.userId)

/-- Every port is held by one row, whose user is the one of its tasks. -/
def Owned (rt : BackendRuntime) : Prop :=
  ∀ port, ∃ cur, HeldBy rt port cur

theorem synced_owned {rt : BackendRuntime} (h : Owned rt)
    (answer : Except String (List PanelUser)) : Owned (synced P fromUser answer rt) := by
  rcases synced_cases P fromUser answer rt with hsame | ⟨users, -, happly⟩
  · rw [hsame]
    exact h
  · rw [happly]
    intro port
    by_cases hnil : portRows rt.config.node (listenerUsers users) port = []
    · refine ⟨none, ?_⟩
      have hprint := (applyUsers_port P fromUser users rt port).1
      rw [hnil] at hprint
      refine ⟨hprint, ?_⟩
      intro active hentry
      rw [fingerprintAt, hentry] at hprint
      cases hprint
    · obtain ⟨cur, hcur⟩ := h port
      exact ⟨_, applyUsers_heldBy P fromUser hcur hnil⟩

theorem new_heldBy (config : Config) (port : UInt16) : HeldBy (new config) port none := by
  have hentry : (new config).activeUsers[port]? = none := Std.HashMap.getElem?_empty
  refine ⟨?_, ?_⟩
  · rw [fingerprintAt, hentry]
    rfl
  · intro active hactive
    rw [hentry] at hactive
    cases hactive

theorem polls_owned (config : Config) (answers : List (Except String (List PanelUser))) :
    Owned (polls P fromUser (new config) answers) := by
  have hnew : Owned (new config) := fun port => ⟨none, new_heldBy config port⟩
  have hstep : ∀ rt answer, Owned rt → Owned (synced P fromUser answer rt) :=
    fun rt answer h => synced_owned P fromUser h answer
  exact Machine.run_keeps hstep hnew answers

theorem polls_stocked (config : Config) (answers : List (Except String (List PanelUser)))
    (port : UInt16) (active : ActiveUser)
    (hentry : (polls P fromUser (new config) answers).activeUsers[port]? = some active) :
    Stocked (polls P fromUser (new config) answers) active := by
  have hnew : ∀ (port : UInt16) (active : ActiveUser),
      (new config).activeUsers[port]? = some active → Stocked (new config) active := by
    intro port active hentry
    rw [new, Std.HashMap.getElem?_empty] at hentry
    cases hentry
  have hstep : ∀ rt answer, (∀ (port : UInt16) (active : ActiveUser),
      rt.activeUsers[port]? = some active → Stocked rt active) →
      ∀ (port : UInt16) (active : ActiveUser),
        (synced P fromUser answer rt).activeUsers[port]? = some active →
          Stocked (synced P fromUser answer rt) active := by
    intro rt answer h
    rcases synced_cases P fromUser answer rt with hsame | ⟨users, -, happly⟩
    · rw [hsame]
      exact h
    · rw [happly]
      exact applyUsers_stocked P fromUser h users
  exact Machine.run_keeps hstep hnew answers port active hentry

theorem Stocked.tasks_ne_nil {rt : BackendRuntime} {active : ActiveUser} (h : Stocked rt active)
    (henabled : rt.config.node.tcpEnabled ∨ rt.config.node.udpEnabled) : active.tasks ≠ [] := by
  rw [← h.tcp_isSome, ← h.udp_isSome] at henabled
  exact BackendRuntime.tasks_ne_nil henabled

theorem foldl_lead_same {rows : List (UserFingerprint × Nat)} {first : UserFingerprint × Nat}
    (h : ∀ row ∈ rows, row = first) : rows.foldl lead (some first) = some first := by
  induction rows with
  | nil => rfl
  | cons row rows ih =>
      rw [List.foldl_cons, lead, h row (List.mem_cons_self ..), Option.map_some, if_pos rfl]
      exact ih fun row hmem => h row (List.mem_cons_of_mem _ hmem)

/-- The tasks of a port tell the row that holds it. -/
theorem HeldBy.running_lead {rt : BackendRuntime} {port : UInt16}
    {cur : Option (UserFingerprint × Nat)} (h : HeldBy rt port cur)
    (hne : ∀ active, rt.activeUsers[port]? = some active → active.tasks ≠ []) :
    (running rt port).foldl lead none = cur := by
  have hprint := h.fingerprint_eq
  rw [running]
  rw [fingerprintAt] at hprint
  cases hentry : rt.activeUsers[port]? with
  | none =>
      rw [hentry] at hprint
      exact (Option.map_eq_none_iff.mp hprint.symm).symm
  | some active =>
      rw [hentry] at hprint
      obtain ⟨first, hcur, hfst⟩ := Option.map_eq_some_iff.mp hprint.symm
      have hall : ∀ row ∈ active.tasks.map fun task => (active.fingerprint, task.userId),
          row = first := by
        intro row hrow
        obtain ⟨task, hmem, rfl⟩ := List.mem_map.mp hrow
        have hid := h.userId_eq active hentry task hmem
        rw [hcur] at hid
        exact Prod.ext hfst.symm (Option.some.inj hid).symm
      rw [Option.toList_some, List.flatMap_singleton, hcur]
      cases htasks : active.tasks with
      | nil => exact absurd htasks (hne active hentry)
      | cons task tasks =>
          rw [htasks, List.map_cons] at hall
          rw [List.map_cons, List.foldl_cons, lead, hall _ (List.mem_cons_self ..), Option.map_none,
            if_neg (by rintro ⟨⟩)]
          exact foldl_lead_same fun row hmem => hall row (List.mem_cons_of_mem _ hmem)

/-- The listeners of every port hold the user of its row, and that user has a counter. -/
def FallbackCurrent (users : List PanelUser) (rt : BackendRuntime) : Prop :=
  ∀ (port : UInt16) (active : ActiveUser), rt.activeUsers[port]? = some active →
    ∀ task ∈ active.tasks, ∃ row, keptRow rt.config.node users port = some row ∧
      task.userId = row.userId ∧ task.userId ∈ rt.tables.countersByUser

/-- Back from the row of a port through the rows before it and the running tasks, as long as the
fingerprint is the same, the user at the end is that of the row. -/
def LeaderCurrent (users : List PanelUser) (rt : BackendRuntime) : Prop :=
  ∀ port row fingerprint, keptRow rt.config.node users port = some row →
    fingerprint? rt.config.node row = some fingerprint →
    (leader (running rt port ++ portRows rt.config.node (listenerUsers users) port)
      fingerprint).map Prod.snd = some row.userId

theorem keptRow_mem {node : NodeConfig} {users : List PanelUser} {port : UInt16} {row : PanelUser}
    (h : keptRow node users port = some row) : row ∈ users := by
  have hmem := List.mem_reverse.mp (List.mem_of_find?_eq_some h)
  rw [selectedRows] at hmem
  split at hmem
  · exact List.mem_of_find?_eq_some (Option.mem_toList.mp hmem)
  · exact (List.mem_filter.mp hmem).1

/-- The row of a port comes last. -/
theorem portRows_eq_append {node : NodeConfig} {users : List PanelUser} {port : UInt16}
    {row : PanelUser} {fingerprint : UserFingerprint} (h : keptRow node users port = some row)
    (hprint : fingerprint? node row = some fingerprint) :
    ∃ before, portRows node (listenerUsers users) port =
      before ++ [(fingerprint, row.userId)] := by
  have hlast := portRows_getLast? node users port
  rw [h, Option.bind_some, portRow, hprint, Option.map_some] at hlast
  exact ⟨_, (List.dropLast_append_getLast? _ hlast).symm⟩

theorem applyUsers_fallback {users : List PanelUser} {rt : BackendRuntime} {port : UInt16}
    {row : PanelUser} {fingerprint : UserFingerprint} (howned : Owned rt)
    (hne : ∀ active, rt.activeUsers[port]? = some active → active.tasks ≠ [])
    (hkept : keptRow rt.config.node users port = some row)
    (hprint : fingerprint? rt.config.node row = some fingerprint) {active : ActiveUser}
    (hentry : (applyUsers P fromUser users rt).activeUsers[port]? = some active)
    {task : ListenerTask} (hmem : task ∈ active.tasks) :
    (leader (running rt port ++ portRows rt.config.node (listenerUsers users) port)
      fingerprint).map Prod.snd = some task.userId := by
  obtain ⟨cur, hcur⟩ := howned port
  obtain ⟨before, hbefore⟩ := portRows_eq_append hkept hprint
  have hheld := applyUsers_heldBy P fromUser hcur (portRows_ne_nil hkept)
  have hlead := foldl_lead (running rt port ++ before) (fingerprint, row.userId)
  rw [List.append_assoc, ← hbefore, List.foldl_append, hcur.running_lead hne] at hlead
  rw [← hlead]
  exact hheld.userId_eq active hentry task hmem

/-- A port has an entry after a poll exactly where it has a row. -/
theorem applyUsers_entry_row {users : List PanelUser} {rt : BackendRuntime} {port : UInt16}
    {active : ActiveUser} (hentry : (applyUsers P fromUser users rt).activeUsers[port]? = some active) :
    ∃ row fingerprint, keptRow rt.config.node users port = some row ∧
      fingerprint? rt.config.node row = some fingerprint := by
  have hprint := (applyUsers_port P fromUser users rt port).1
  rw [fingerprintAt, hentry, portRows_getLast?] at hprint
  obtain ⟨last, hlast, -⟩ := Option.map_eq_some_iff.mp hprint.symm
  obtain ⟨row, hkept, hrow⟩ := Option.bind_eq_some_iff.mp hlast
  obtain ⟨fingerprint, hfingerprint, -⟩ := Option.map_eq_some_iff.mp hrow
  exact ⟨row, fingerprint, hkept, hfingerprint⟩

theorem applyUsers_row_entry {users : List PanelUser} {rt : BackendRuntime} {port : UInt16}
    {row : PanelUser} (hkept : keptRow rt.config.node users port = some row) :
    ∃ active, (applyUsers P fromUser users rt).activeUsers[port]? = some active := by
  have hprint := (applyUsers_port P fromUser users rt port).1
  cases hlast : (portRows rt.config.node (listenerUsers users) port).getLast? with
  | none => exact absurd (List.getLast?_eq_none_iff.mp hlast) (portRows_ne_nil hkept)
  | some last =>
      rw [hlast] at hprint
      obtain ⟨active, hactive, -⟩ := Option.map_eq_some_iff.mp hprint
      exact ⟨active, hactive⟩

section LastPoll

variable {users : List PanelUser} {rt : BackendRuntime} (howned : Owned rt)
  (hstocked : ∀ (port : UInt16) (active : ActiveUser), rt.activeUsers[port]? = some active →
    Stocked rt active)
  (henabled : rt.config.node.tcpEnabled ∨ rt.config.node.udpEnabled)

include howned hstocked henabled

theorem leaderCurrent_of_fallback
    (h : FallbackCurrent users (applyUsers P fromUser users rt)) : LeaderCurrent users rt := by
  have hconfig := (applyUsers_touches P fromUser users rt).config_eq
  intro port row fingerprint hkept hprint
  obtain ⟨active, hactive⟩ := applyUsers_row_entry P fromUser hkept
  have hnext := applyUsers_stocked P fromUser hstocked users port active hactive
  obtain ⟨task, hmem⟩ := List.exists_mem_of_ne_nil _
    (hnext.tasks_ne_nil (by rw [hconfig]; exact henabled))
  obtain ⟨row', hkept', huser, -⟩ := h port active hactive task hmem
  rw [hconfig, hkept] at hkept'
  cases hkept'
  rw [← huser]
  exact applyUsers_fallback P fromUser howned
    (fun active hentry => (hstocked port active hentry).tasks_ne_nil henabled)
    hkept hprint hactive hmem

theorem fallback_of_leaderCurrent (h : LeaderCurrent users rt) :
    FallbackCurrent users (applyUsers P fromUser users rt) := by
  have hconfig := (applyUsers_touches P fromUser users rt).config_eq
  have hserving := applyUsers_serving P fromUser users rt
  intro port active hactive task hmem
  obtain ⟨row, fingerprint, hkept, hprint⟩ := applyUsers_entry_row P fromUser hactive
  have hheld := applyUsers_fallback P fromUser howned
    (fun active hentry => (hstocked port active hentry).tasks_ne_nil henabled)
    hkept hprint hactive hmem
  have huser : task.userId = row.userId :=
    Option.some.inj (hheld.symm.trans (h port row fingerprint hkept hprint))
  refine ⟨row, by rw [hconfig]; exact hkept, huser, ?_⟩
  rw [huser, hserving.counters.mem_iff, isLive, List.any_eq_true]
  exact ⟨row, keptRow_mem hkept, by simp⟩

end LastPoll

/-- After the last of any polls, the listeners fall back to the users of their rows exactly where
the rows and tasks that they were kept through lead back to those users. -/
theorem fallback_current_iff (config : Config) (answers : List (Except String (List PanelUser)))
    (users : List PanelUser) :
    let rt := polls P fromUser (new config) answers
    ¬Rejects (.ok users) rt →
      (FallbackCurrent users (synced P fromUser (.ok users) rt) ↔
        (rt.config.node.tcpEnabled = false ∧ rt.config.node.udpEnabled = false) ∨
          LeaderCurrent users rt) := by
  intro rt hok
  have howned := polls_owned P fromUser config answers
  have hstocked := polls_stocked P fromUser config answers
  rw [(synced_accepts P fromUser hok).1]
  by_cases henabled : rt.config.node.tcpEnabled ∨ rt.config.node.udpEnabled
  · constructor
    · intro h
      exact Or.inr (leaderCurrent_of_fallback P fromUser howned hstocked henabled h)
    · intro h
      rcases h with ⟨htcp, hudp⟩ | h
      · rw [htcp, hudp] at henabled
        exact absurd henabled (by decide)
      · exact fallback_of_leaderCurrent P fromUser howned hstocked henabled h
  · have htcp : rt.config.node.tcpEnabled = false :=
      Bool.eq_false_iff.mpr fun h => henabled (Or.inl h)
    have hudp : rt.config.node.udpEnabled = false :=
      Bool.eq_false_iff.mpr fun h => henabled (Or.inr h)
    refine ⟨fun _ => Or.inl ⟨htcp, hudp⟩, fun _ => ?_⟩
    intro port active hactive task hmem
    have hnext := applyUsers_stocked P fromUser hstocked users port active hactive
    have hconfig := (applyUsers_touches P fromUser users rt).config_eq
    rw [tasks_eq_nil (hnext.tcp_isSome.trans (by rw [hconfig]; exact htcp))
      (hnext.udp_isSome.trans (by rw [hconfig]; exact hudp))] at hmem
    cases hmem

theorem keptRow_port {node : NodeConfig} {users : List PanelUser} {port : UInt16}
    {row : PanelUser} (h : keptRow node users port = some row) : row.port = port := by
  have hmem := List.mem_reverse.mp (List.mem_of_find?_eq_some h)
  rw [← listenerUsers_port] at hmem
  simpa using (List.mem_filter.mp hmem).2

theorem HeldBy.leader_eq {rt : BackendRuntime} {port : UInt16}
    {cur : Option (UserFingerprint × Nat)} (h : HeldBy rt port cur)
    (hne : ∀ active, rt.activeUsers[port]? = some active → active.tasks ≠ [])
    (row : UserFingerprint × Nat) : leader (running rt port ++ [row]) row.1 = lead cur row := by
  rw [← foldl_lead, List.foldl_append, h.running_lead hne]
  rfl

theorem sample_leaderCurrent {rt : BackendRuntime} {cur : Option (UserFingerprint × Nat)}
    {id : Nat} {port : UInt16} {password : String} (hconfig : rt.config.node = sampleNode)
    (h : HeldBy rt port cur)
    (hne : ∀ active, rt.activeUsers[port]? = some active → active.tasks ≠ []) :
    LeaderCurrent [sampleRow id port password 0] rt ↔
      (lead cur (⟨port, password, sampleProfile, 0⟩, id)).map Prod.snd = some id := by
  have hlead := h.leader_eq hne (⟨port, password, sampleProfile, 0⟩, id)
  rw [LeaderCurrent, hconfig]
  constructor
  · intro hcurrent
    have hport := hcurrent port _ _ (sample_keptRow id port password)
      (sampleRow_fingerprint id port password 0)
    rw [sample_portRows, hlead] at hport
    exact hport
  · intro hid other row fingerprint hkept hprint
    cases List.mem_singleton.mp (keptRow_mem hkept)
    cases keptRow_port hkept
    rw [sampleRow_fingerprint] at hprint
    cases hprint
    exact (congrArg (Option.map Prod.snd)
      ((congrArg (leader · _) (congrArg _ (sample_portRows id port password))).trans hlead)).trans hid

theorem sample_polls (id : Nat) :
    polls .standard noLimits (new sampleConfig) [.ok [sampleRow id 443 "a" 0]] =
      applyUsers .standard noLimits [sampleRow id 443 "a" 0] (new sampleConfig) :=
  sample_first id

/-- The port of the first poll goes on for the user of that poll. -/
theorem sample_leads (id id' : Nat) :
    LeaderCurrent [sampleRow id' 443 "a" 0]
      (polls .standard noLimits (new sampleConfig) [.ok [sampleRow id 443 "a" 0]]) ↔ id = id' := by
  have hrows : portRows (new sampleConfig).config.node (listenerUsers [sampleRow id 443 "a" 0]) 443 =
      [(⟨443, "a", sampleProfile, 0⟩, id)] := sample_portRows id 443 "a"
  have hstocked := polls_stocked .standard noLimits sampleConfig [.ok [sampleRow id 443 "a" 0]]
  have hheld := applyUsers_heldBy .standard noLimits (new_heldBy sampleConfig 443)
    (show portRows (new sampleConfig).config.node (listenerUsers [sampleRow id 443 "a" 0]) 443 ≠ []
      by rw [hrows]; nofun)
  have hconfig := (applyUsers_touches .standard noLimits [sampleRow id 443 "a" 0]
    (new sampleConfig)).config_eq
  rw [sample_polls] at hstocked ⊢
  have henabled : (applyUsers .standard noLimits [sampleRow id 443 "a" 0]
      (new sampleConfig)).config.node.tcpEnabled ∨ (applyUsers .standard noLimits
      [sampleRow id 443 "a" 0] (new sampleConfig)).config.node.udpEnabled := by
    rw [hconfig]
    exact Or.inl rfl
  rw [sample_leaderCurrent (congrArg Config.node hconfig) hheld
    fun active hentry => (hstocked 443 active hentry).tasks_ne_nil henabled, hrows]
  simp [lead]

/-- A port that the last poll leaves alone falls back to the user that its row still has. -/
theorem fallback_current_sample :
    let rt := polls .standard noLimits (new sampleConfig) [.ok [sampleRow 1 443 "a" 0]]
    let rt' := synced .standard noLimits (.ok [sampleRow 1 443 "a" 0]) rt
    FallbackCurrent [sampleRow 1 443 "a" 0] rt' ∧
      (∃ task active, rt.activeUsers[(443 : UInt16)]? = some active ∧ task ∈ active.tasks) ∧
      rt'.activeUsers[(443 : UInt16)]? = rt.activeUsers[(443 : UInt16)]? := by
  have hconfig := (applyUsers_touches .standard noLimits [sampleRow 1 443 "a" 0]
    (new sampleConfig)).config_eq
  have hok : ¬Rejects (.ok [sampleRow 1 443 "a" 0])
      (polls .standard noLimits (new sampleConfig) [.ok [sampleRow 1 443 "a" 0]]) :=
    not_rejects_ok (by rw [sample_polls, hconfig]; decide)
  refine ⟨?_, ?_⟩
  · rw [fallback_current_iff .standard noLimits sampleConfig _ _ hok]
    exact Or.inr ((sample_leads 1 1).mpr rfl)
  · rw [sample_polls]
    obtain ⟨active, task, hactive, hmem, -⟩ := sample_spawned 1
    exact ⟨⟨task, active, hactive, hmem⟩, sample_keeps 1 1⟩

/-- The port of a user goes to another user with the same password: the listener that runs goes on
for the first one. -/
theorem fallback_stale :
    ¬FallbackCurrent [sampleRow 2 443 "a" 0]
      (synced .standard noLimits (.ok [sampleRow 2 443 "a" 0])
        (polls .standard noLimits (new sampleConfig) [.ok [sampleRow 1 443 "a" 0]])) := by
  have howned := polls_owned .standard noLimits sampleConfig [.ok [sampleRow 1 443 "a" 0]]
  have hstocked := polls_stocked .standard noLimits sampleConfig [.ok [sampleRow 1 443 "a" 0]]
  have hconfig : (polls .standard noLimits (new sampleConfig)
      [.ok [sampleRow 1 443 "a" 0]]).config = sampleConfig := by
    rw [sample_polls, (applyUsers_touches .standard noLimits _ (new sampleConfig)).config_eq]
    rfl
  have hok : ¬Rejects (.ok [sampleRow 2 443 "a" 0])
      (polls .standard noLimits (new sampleConfig) [.ok [sampleRow 1 443 "a" 0]]) :=
    not_rejects_ok (by rw [hconfig]; decide)
  have henabled : (polls .standard noLimits (new sampleConfig)
      [.ok [sampleRow 1 443 "a" 0]]).config.node.tcpEnabled ∨ (polls .standard noLimits
      (new sampleConfig) [.ok [sampleRow 1 443 "a" 0]]).config.node.udpEnabled := by
    rw [hconfig]
    exact Or.inl rfl
  rw [(synced_accepts .standard noLimits hok).1]
  intro hcurrent
  have hleader := leaderCurrent_of_fallback .standard noLimits howned hstocked henabled hcurrent
  have hsame : (1 : Nat) = 2 := (sample_leads 1 2).mp hleader
  exact absurd hsame (by decide)

end BackendRuntime

end SsrBackend
