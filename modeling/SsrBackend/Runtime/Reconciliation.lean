import SsrBackend.Runtime.Tables

/-!
Polls, one after another: which listeners `sync_users` stops, spawns and leaves,
and which account a listener falls back to.
-/

namespace SsrBackend

namespace BackendRuntime

variable (P : Primitives) (fromUser : PanelUser → UserPolicy)

/-- A failed poll changes nothing. A successful one leaves exactly the kept rows' listeners, and
a port whose one selected row agrees with its entry is not touched. -/
theorem sync_reconciles (answer : Except String (List PanelUser)) (rt : BackendRuntime) :
    (((syncUsers P fromUser answer).run rt).1 ≠ .ok () ↔ Rejects answer rt) ∧
    (Rejects answer rt → synced P fromUser answer rt = rt) ∧
    ∀ users, answer = .ok users → ¬Rejects answer rt →
      (∀ port, (synced P fromUser answer rt).fingerprintAt port =
        (keptRow rt.config.node users port).bind (fingerprint? rt.config.node)) ∧
      ∀ port row fingerprint, selectedRows users port = [row] →
        fingerprint? rt.config.node row = some fingerprint →
        rt.fingerprintAt port = some fingerprint →
        (synced P fromUser answer rt).activeUsers[port]? = rt.activeUsers[port]? ∧
        Silent port rt (synced P fromUser answer rt) := by
  refine ⟨rejects_iff P fromUser answer rt, fun h => (synced_rejects P fromUser h).1, ?_⟩
  intro users hanswer hok
  subst hanswer
  rw [(synced_accepts P fromUser hok).1]
  constructor
  · intro port
    rw [(applyUsers_port P fromUser users rt port).1, portRows_getLast?]
    cases hkept : keptRow rt.config.node users port with
    | none => rfl
    | some row =>
        rw [Option.bind_some, Option.bind_some, portRow, Option.map_map]
        exact Option.map_id_apply
  · intro port row fingerprint hselected hprint hsame
    have hrows : portRows rt.config.node (listenerUsers users) port =
        [(fingerprint, row.userId)] := by
      rw [portRows, listenerUsers_port, hselected]
      simp [portRow, hprint]
    have huntouched := (applyUsers_port P fromUser users rt port).2.1
    rw [hrows] at huntouched
    have h := huntouched
      (fun other hmem => by rw [List.mem_singleton.mp hmem, hsame]) (by rintro ⟨⟩)
    exact ⟨h.entry_eq port fun h => h rfl, h.silent fun h => h rfl⟩

/-! ### The same list twice -/

/-- The supported rows of a port agree. -/
def Uniform (rows : List (UserFingerprint × Nat)) : Prop :=
  ∀ row ∈ rows, ∀ row' ∈ rows, row.1 = row'.1

/-- The entry that a poll leaves agrees with all rows of its port, if these agree. -/
theorem uniform_iff (users : List PanelUser) (rt : BackendRuntime) (port : UInt16) :
    Uniform (portRows rt.config.node (listenerUsers users) port) ↔
      ∀ row ∈ portRows rt.config.node (listenerUsers users) port,
        (applyUsers P fromUser users rt).fingerprintAt port = some row.1 := by
  rw [(applyUsers_port P fromUser users rt port).1]
  generalize portRows rt.config.node (listenerUsers users) port = rows
  cases hlast : rows.getLast? with
  | none =>
      rw [List.getLast?_eq_none_iff.mp hlast]
      exact ⟨fun _ _ h => (nomatch h), fun _ _ h => (nomatch h)⟩
  | some last =>
      have hmem : last ∈ rows := List.mem_of_getLast? hlast
      constructor
      · intro huniform row hrow
        rw [Option.map_some, huniform last hmem row hrow]
      · intro hall row hrow row' hrow'
        exact Option.some.inj ((hall row hrow).symm.trans (hall row' hrow'))

theorem mem_portRows {node : NodeConfig} {rows : List PanelUser} {port : UInt16}
    {row : UserFingerprint × Nat} :
    row ∈ portRows node rows port ↔
      ∃ user ∈ rows, user.port = port ∧ portRow node user = some row := by
  rw [portRows, List.mem_filterMap]
  simp only [List.mem_filter, decide_eq_true_eq, and_assoc]

theorem uniform_carrier {users : List PanelUser} (hany : users.any isCarrier) (node : NodeConfig)
    (port : UInt16) : Uniform (portRows node (listenerUsers users) port) := by
  rw [portRows, listenerUsers_port, selectedRows, if_pos hany]
  intro row hrow row' hrow'
  obtain ⟨user, huser, hsome⟩ := List.mem_filterMap.mp hrow
  obtain ⟨user', huser', hsome'⟩ := List.mem_filterMap.mp hrow'
  rw [Option.mem_toList] at huser huser'
  have heq : user = user' := Option.some.inj (huser.symm.trans huser')
  rw [heq] at hsome
  exact congrArg Prod.fst (Option.some.inj (hsome.symm.trans hsome'))

theorem uniform_ordinary {users : List PanelUser} (hany : ¬users.any isCarrier)
    {node : NodeConfig}
    (hall : ∀ user ∈ users, ∀ user' ∈ users, user.port = user'.port →
      ∀ fingerprint fingerprint', fingerprint? node user = some fingerprint →
        fingerprint? node user' = some fingerprint' → fingerprint = fingerprint')
    (port : UInt16) : Uniform (portRows node (listenerUsers users) port) := by
  rw [listenerUsers_ordinary hany]
  intro row hrow row' hrow'
  obtain ⟨user, huser, hport, hsome⟩ := mem_portRows.mp hrow
  obtain ⟨user', huser', hport', hsome'⟩ := mem_portRows.mp hrow'
  obtain ⟨fingerprint, hprint, rfl⟩ := Option.map_eq_some_iff.mp hsome
  obtain ⟨fingerprint', hprint', rfl⟩ := Option.map_eq_some_iff.mp hsome'
  exact hall user huser user' huser' (hport.trans hport'.symm) _ _ hprint hprint'

section Twice

variable (users : List PanelUser) (rt : BackendRuntime) (port : UInt16)

theorem reapply_uniform (h : Uniform (portRows rt.config.node (listenerUsers users) port)) :
    Touches (· ≠ port) (applyUsers P fromUser users rt)
      (applyUsers P fromUser users (applyUsers P fromUser users rt)) := by
  have hconfig := (applyUsers_touches P fromUser users rt).config_eq
  have hprint := (applyUsers_port P fromUser users rt port).1
  have hagree := (uniform_iff P fromUser users rt port).mp h
  have htwice := (applyUsers_port P fromUser users (applyUsers P fromUser users rt) port).2.1
  rw [hconfig] at htwice
  refine htwice hagree ?_
  intro hnil
  rw [hprint, hnil]
  rfl

theorem reapply_other (h : ¬Uniform (portRows rt.config.node (listenerUsers users) port)) :
    Renewed port (applyUsers P fromUser users rt)
      (applyUsers P fromUser users (applyUsers P fromUser users rt)) := by
  have hconfig := (applyUsers_touches P fromUser users rt).config_eq
  have htwice := (applyUsers_port P fromUser users (applyUsers P fromUser users rt) port).2.2
  rw [uniform_iff P fromUser users rt port] at h
  rw [hconfig] at htwice
  push Not at h
  exact htwice h

/-- An entry that is made with both kinds of listeners off has no task. -/
theorem reapply_off (htcp : rt.config.node.tcpEnabled = false)
    (hudp : rt.config.node.udpEnabled = false) :
    Silent port (applyUsers P fromUser users rt)
      (applyUsers P fromUser users (applyUsers P fromUser users rt)) := by
  by_cases huniform : Uniform (portRows rt.config.node (listenerUsers users) port)
  · exact (reapply_uniform P fromUser users rt port huniform).silent fun h => h rfl
  · have hconfig := (applyUsers_touches P fromUser users rt).config_eq
    have honce : Renewed port rt (applyUsers P fromUser users rt) := by
      apply (applyUsers_port P fromUser users rt port).2.2
      by_contra hall
      push Not at hall
      apply huniform
      intro row hrow row' hrow'
      exact Option.some.inj ((hall row hrow).symm.trans (hall row' hrow'))
    obtain ⟨active, hentry, hnoTcp, hnoUdp, -⟩ := honce.entry
    apply applyUsers_silent
    · intro active' hentry'
      rw [hentry] at hentry'
      cases hentry'
      exact tasks_eq_nil (hnoTcp.trans htcp) (hnoUdp.trans hudp)
    · rw [hconfig, htcp]
    · rw [hconfig, hudp]
    · rw [hconfig]
      intro hnil
      apply huniform
      rw [hnil]
      exact fun _ h => nomatch h

theorem synced_twice (hmax : ¬rt.config.limits.maxUsers < users.length) :
    synced P fromUser (.ok users) rt = applyUsers P fromUser users rt ∧
      synced P fromUser (.ok users) (synced P fromUser (.ok users) rt) =
        applyUsers P fromUser users (applyUsers P fromUser users rt) := by
  have honce := (synced_accepts P fromUser (not_rejects_ok hmax)).1
  have hconfig := (applyUsers_touches P fromUser users rt).config_eq
  rw [honce]
  refine ⟨rfl, (synced_accepts P fromUser (not_rejects_ok ?_)).1⟩
  rw [hconfig]
  exact hmax

/-- Rows that differ are spawned again, one after the other, in every poll. -/
theorem resync_respawns_of_ne (hmax : ¬rt.config.limits.maxUsers < users.length)
    (hany : ¬users.any isCarrier)
    (henabled : rt.config.node.tcpEnabled ∨ rt.config.node.udpEnabled)
    {user user' : PanelUser} (huser : user ∈ users) (huser' : user' ∈ users)
    (hport : user.port = user'.port) {fingerprint fingerprint' : UserFingerprint}
    (hsome : fingerprint? rt.config.node user = some fingerprint)
    (hsome' : fingerprint? rt.config.node user' = some fingerprint')
    (hne : fingerprint ≠ fingerprint') :
    (synced P fromUser (.ok users) (synced P fromUser (.ok users) rt)).actions ≠
      (synced P fromUser (.ok users) rt).actions := by
  have hother : ¬Uniform (portRows rt.config.node (listenerUsers users) user'.port) := by
    rw [listenerUsers_ordinary hany]
    intro huniform
    apply hne
    exact huniform (fingerprint, user.userId)
      (mem_portRows.mpr ⟨user, huser, hport, by rw [portRow, hsome]; rfl⟩)
      (fingerprint', user'.userId)
      (mem_portRows.mpr ⟨user', huser', rfl, by rw [portRow, hsome']; rfl⟩)
  obtain ⟨honce, htwice⟩ := synced_twice P fromUser users rt hmax
  rw [htwice, honce]
  intro hsame
  have hlt := (reapply_other P fromUser users rt user'.port hother).actions_lt
  rw [(applyUsers_touches P fromUser users rt).config_eq, hsame] at hlt
  exact Nat.lt_irrefl _ (hlt henabled)

end Twice

/-- The second of two polls with one list stops and spawns nothing, exactly where the supported
rows of each port agree, unless the list is refused, has carriers or nothing listens. -/
theorem resync_silent_iff (users : List PanelUser) (rt : BackendRuntime) :
    (synced P fromUser (.ok users) (synced P fromUser (.ok users) rt)).actions =
        (synced P fromUser (.ok users) rt).actions ↔
      rt.config.limits.maxUsers < users.length ∨ users.any isCarrier ∨
        (rt.config.node.tcpEnabled = false ∧ rt.config.node.udpEnabled = false) ∨
        ∀ user ∈ users, ∀ user' ∈ users, user.port = user'.port →
          ∀ fingerprint fingerprint', fingerprint? rt.config.node user = some fingerprint →
            fingerprint? rt.config.node user' = some fingerprint' → fingerprint = fingerprint' := by
  constructor
  · intro hsame
    by_cases hmax : rt.config.limits.maxUsers < users.length
    · exact Or.inl hmax
    by_cases hany : users.any isCarrier
    · exact Or.inr (Or.inl hany)
    by_cases henabled : rt.config.node.tcpEnabled ∨ rt.config.node.udpEnabled
    · refine Or.inr (Or.inr (Or.inr ?_))
      intro user huser user' huser' hport fingerprint fingerprint' hsome hsome'
      by_contra hne
      exact resync_respawns_of_ne P fromUser users rt hmax hany henabled huser huser' hport
        hsome hsome' hne hsame
    · refine Or.inr (Or.inr (Or.inl ⟨?_, ?_⟩))
      · exact Bool.eq_false_iff.mpr fun htcp => henabled (Or.inl htcp)
      · exact Bool.eq_false_iff.mpr fun hudp => henabled (Or.inr hudp)
  · intro hcases
    by_cases hmax : rt.config.limits.maxUsers < users.length
    · have hrejects : Rejects (.ok users) rt := Or.inr ⟨users, rfl, hmax⟩
      rw [(synced_rejects P fromUser hrejects).1, (synced_rejects P fromUser hrejects).1]
    · obtain ⟨honce, htwice⟩ := synced_twice P fromUser users rt hmax
      rw [htwice, honce]
      apply Silent.actions_eq
      intro port
      rcases hcases with hover | hany | ⟨htcp, hudp⟩ | hall
      · exact absurd hover hmax
      · have huniform := uniform_carrier hany rt.config.node port
        exact (reapply_uniform P fromUser users rt port huniform).silent fun h => h rfl
      · exact reapply_off P fromUser users rt port htcp hudp
      · by_cases hany : users.any isCarrier
        · have huniform := uniform_carrier hany rt.config.node port
          exact (reapply_uniform P fromUser users rt port huniform).silent fun h => h rfl
        · have huniform := uniform_ordinary hany hall port
          exact (reapply_uniform P fromUser users rt port huniform).silent fun h => h rfl

/-- Two users of one port with different passwords: the second poll stops and spawns again. -/
theorem resync_respawns :
    let users := [sampleRow 1 443 "a" 0, sampleRow 2 443 "b" 0]
    let once := synced .standard noLimits (.ok users) (new sampleConfig)
    (synced .standard noLimits (.ok users) once).actions ≠ once.actions := by
  apply resync_respawns_of_ne .standard noLimits _ (new sampleConfig)
  · decide
  · decide
  · exact Or.inl rfl
  · exact List.mem_cons_self ..
  · exact List.mem_cons_of_mem _ (List.mem_cons_self ..)
  · rfl
  · exact sampleRow_fingerprint 1 443 "a" 0
  · exact sampleRow_fingerprint 2 443 "b" 0
  · decide

end BackendRuntime

end SsrBackend
