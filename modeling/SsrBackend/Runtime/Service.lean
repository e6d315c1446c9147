import SsrBackend.Runtime.InForce
import SsrBackend.Runtime.ListenerRuns
import SsrBackend.Runtime.Startup

/-!
From the configuration file and the panel to the listeners. A backend that has started
listens, until it takes the signal, where the last accepted list of users and the
configuration say so, and with what they say.
-/

namespace SsrBackend

def ListenerTask.fingerprint (task : ListenerTask) : UserFingerprint :=
  ⟨task.port, task.password, task.profile, task.isMultiUser⟩

def NodeConfig.enables (node : NodeConfig) : ListenerKind → Bool
  | .tcp => node.tcpEnabled
  | .udp => node.udpEnabled

namespace BackendRuntime

/-- The list of an answer that is accepted. -/
def accepted? (config : Config) (answer : Except String (List PanelUser)) :
    Option (List PanelUser) :=
  answer.toOption.filter fun users => users.length ≤ config.limits.maxUsers

/-- The list that is in force after some answers. -/
def inForce (config : Config) (answers : List (Except String (List PanelUser))) :
    List PanelUser :=
  (answers.filterMap (accepted? config)).getLast?.getD []

variable (P : Primitives) (fromUser : PanelUser → UserPolicy)

theorem synced_eq (answer : Except String (List PanelUser)) (rt : BackendRuntime) :
    synced P fromUser answer rt =
      ((accepted? rt.config answer).map fun users => applyUsers P fromUser users rt).getD rt := by
  cases answer with
  | error reason => rfl
  | ok users =>
      have hfilter : accepted? rt.config (.ok users) =
          if users.length ≤ rt.config.limits.maxUsers then some users else none := by
        rw [accepted?, Except.toOption, Option.filter_some]
        simp only [decide_eq_true_eq]
      rw [hfilter]
      by_cases hmax : rt.config.limits.maxUsers < users.length
      · rw [(synced_rejects P fromUser (Or.inr ⟨users, rfl, hmax⟩)).1, if_neg (Nat.not_le.mpr hmax)]
        rfl
      · rw [(synced_accepts P fromUser (not_rejects_ok hmax)).1, if_pos (Nat.not_lt.mp hmax)]
        rfl

theorem polls_config (rt : BackendRuntime) (answers : List (Except String (List PanelUser))) :
    (polls P fromUser rt answers).config = rt.config := by
  have hstep : ∀ rt' answer, rt'.config = rt.config →
      (synced P fromUser answer rt').config = rt.config := by
    intro rt' answer h
    rcases synced_cases P fromUser answer rt' with hsame | ⟨users, -, happly⟩
    · rw [hsame, h]
    · rw [happly, (applyUsers_touches P fromUser users rt').config_eq, h]
  exact Machine.run_keeps hstep rfl answers

/-- The entries are those of the list in force. -/
theorem polls_fingerprintAt (config : Config) (answers : List (Except String (List PanelUser)))
    (port : UInt16) :
    (polls P fromUser (new config) answers).fingerprintAt port =
      (keptRow config.node (inForce config answers) port).bind (fingerprint? config.node) := by
  induction answers using List.reverseRecOn with
  | nil =>
      rw [fingerprintAt]
      change (Option.map _ (∅ : Std.HashMap UInt16 ActiveUser)[port]?) = _
      rw [Std.HashMap.getElem?_empty]
      rfl
  | append_singleton answers answer ih =>
      have hconfig : (polls P fromUser (new config) answers).config = config :=
        polls_config P fromUser (new config) answers
      have hlast : polls P fromUser (new config) (answers ++ [answer]) =
          synced P fromUser answer (polls P fromUser (new config) answers) := Machine.run_append ..
      rw [hlast, synced_eq, hconfig, inForce, List.filterMap_append]
      cases haccepted : accepted? config answer with
      | none =>
          rw [List.filterMap_cons_none haccepted, List.filterMap_nil, List.append_nil]
          exact ih
      | some users =>
          rw [List.filterMap_cons_some haccepted, List.filterMap_nil, List.getLast?_concat]
          change (applyUsers P fromUser users _).fingerprintAt port =
            (keptRow config.node users port).bind _
          rw [(applyUsers_port P fromUser users _ port).1, hconfig, portRows_getLast?,
            Option.map_bind]
          congr 1
          funext user
          rw [Function.comp_apply, portRow, Option.map_map]
          exact Option.map_id'

/-! ### What the listeners are spawned with -/

/-- The listeners of an entry have its fingerprint and the switches of the configuration. -/
def Equipped (config : Config) (active : ActiveUser) : Prop :=
  ∀ task ∈ active.tasks, task.fingerprint = active.fingerprint ∧
    task.enforcement = enforcement config

theorem spawnIf_equipped {rt : BackendRuntime} {enabled : Bool} {kind : ListenerKind}
    {user : PanelUser} {profile : Profile} {task : ListenerTask}
    (hmem : task ∈ (rt.spawnIf enabled kind user profile).1.toList) :
    task.fingerprint = fingerprintOf user profile ∧ task.enforcement = enforcement rt.config := by
  cases enabled with
  | true =>
      rw [List.mem_singleton.mp hmem]
      exact ⟨rfl, rfl⟩
  | false => cases hmem

theorem restarted_equipped (rt : BackendRuntime) (user : PanelUser) (profile : Profile) :
    Equipped rt.config (rt.restarted user profile) := by
  intro task hmem
  have hconfig := (rt.removePort_touches user.port).config_eq
  rw [restarted, ActiveUser.tasks] at hmem
  cases List.mem_append.mp hmem with
  | inl htcp =>
      obtain ⟨hprint, henforcement⟩ := spawnIf_equipped htcp
      exact ⟨hprint, henforcement.trans (congrArg enforcement hconfig)⟩
  | inr hudp =>
      obtain ⟨hprint, henforcement⟩ := spawnIf_equipped hudp
      rw [spawnIf_state] at henforcement
      exact ⟨hprint, henforcement.trans (congrArg enforcement hconfig)⟩

theorem ensureListener_equipped {rt : BackendRuntime}
    (h : ∀ (port : UInt16) (active : ActiveUser), rt.activeUsers[port]? = some active →
      Equipped rt.config active) (user : PanelUser) (port : UInt16) (active : ActiveUser)
    (hentry : (rt.ensureListener user).activeUsers[port]? = some active) :
    Equipped (rt.ensureListener user).config active := by
  rw [(ensureListener_touches rt user).config_eq]
  rcases ensureListener_cases rt user with ⟨hkept, -⟩ | ⟨profile, -, -, hrestart⟩
  · rw [hkept] at hentry
    exact h port active hentry
  · rw [hrestart, restart_entry] at hentry
    split at hentry
    · cases hentry
      exact restarted_equipped rt user profile
    · exact h port active hentry

theorem ensureListeners_equipped {rt : BackendRuntime}
    (h : ∀ (port : UInt16) (active : ActiveUser), rt.activeUsers[port]? = some active →
      Equipped rt.config active) (rows : List PanelUser) :
    ∀ (port : UInt16) (active : ActiveUser),
      (rows.foldl ensureListener rt).activeUsers[port]? = some active →
        Equipped (rows.foldl ensureListener rt).config active := by
  induction rows generalizing rt with
  | nil => exact h
  | cons user rows ih => exact ih (ensureListener_equipped h user)

theorem applyUsers_equipped {rt : BackendRuntime}
    (h : ∀ (port : UInt16) (active : ActiveUser), rt.activeUsers[port]? = some active →
      Equipped rt.config active) (users : List PanelUser) (port : UInt16) (active : ActiveUser)
    (hentry : (applyUsers P fromUser users rt).activeUsers[port]? = some active) :
    Equipped (applyUsers P fromUser users rt).config active := by
  have hpublish := publishTables_touches P fromUser users rt
  have hrows : ∀ (port : UInt16) (active : ActiveUser),
      ((listenerUsers users).foldl ensureListener
        (publishTables P fromUser users rt)).activeUsers[port]? = some active →
      Equipped ((listenerUsers users).foldl ensureListener
        (publishTables P fromUser users rt)).config active := by
    apply ensureListeners_equipped
    intro port active hentry
    rw [hpublish.entry_eq port not_false] at hentry
    rw [hpublish.config_eq]
    exact h port active hentry
  rw [applyUsers] at hentry ⊢
  generalize (listenerUsers users).foldl ensureListener (publishTables P fromUser users rt) =
    ensured at hrows hentry ⊢
  rw [(cleanup_touches ensured users _).config_eq]
  change (ensured.removeStalePorts _).activeUsers[port]? = some active at hentry
  rw [removeStalePorts_entry] at hentry
  split at hentry
  · exact hrows port active hentry
  · cases hentry

theorem polls_equipped (config : Config) (answers : List (Except String (List PanelUser)))
    (port : UInt16) (active : ActiveUser)
    (hentry : (polls P fromUser (new config) answers).activeUsers[port]? = some active) :
    Equipped config active := by
  have hnew : ∀ (port : UInt16) (active : ActiveUser),
      (new config).activeUsers[port]? = some active → Equipped (new config).config active := by
    intro port active hentry
    rw [new, Std.HashMap.getElem?_empty] at hentry
    cases hentry
  have hstep : ∀ rt answer, (∀ (port : UInt16) (active : ActiveUser),
      rt.activeUsers[port]? = some active → Equipped rt.config active) →
      ∀ (port : UInt16) (active : ActiveUser),
        (synced P fromUser answer rt).activeUsers[port]? = some active →
          Equipped (synced P fromUser answer rt).config active := by
    intro rt answer h
    rcases synced_cases P fromUser answer rt with hsame | ⟨users, -, happly⟩
    · rw [hsame]
      exact h
    · rw [happly]
      exact applyUsers_equipped P fromUser h users
  have hequipped := Machine.run_keeps hstep hnew answers port active hentry
  have hconfig : (polls P fromUser (new config) answers).config = config :=
    polls_config P fromUser (new config) answers
  rw [polls] at hconfig
  rw [hconfig] at hequipped
  exact hequipped

end BackendRuntime

/-- An entry has a listener in each place of its port that the configuration enables. -/
theorem ActiveUser.Placed.exists_iff {port : UInt16} {active : ActiveUser}
    (h : active.Placed port) {node : NodeConfig} (htcp : active.tcp.isSome = node.tcpEnabled)
    (hudp : active.udp.isSome = node.udpEnabled) (kind : ListenerKind) :
    (∃ task ∈ active.tasks, task.place = (port, kind)) ↔ node.enables kind = true := by
  cases kind with
  | tcp =>
      rw [NodeConfig.enables, ← htcp, Option.isSome_iff_exists]
      constructor
      · rintro ⟨task, hmem, hplace⟩
        cases ActiveUser.mem_tasks.mp hmem with
        | inl hmem => exact ⟨task, hmem⟩
        | inr hmem =>
            rw [h.udp task hmem] at hplace
            cases hplace
      · rintro ⟨task, hmem⟩
        exact ⟨task, ActiveUser.mem_tasks.mpr (Or.inl hmem), h.tcp task hmem⟩
  | udp =>
      rw [NodeConfig.enables, ← hudp, Option.isSome_iff_exists]
      constructor
      · rintro ⟨task, hmem, hplace⟩
        cases ActiveUser.mem_tasks.mp hmem with
        | inl hmem =>
            rw [h.tcp task hmem] at hplace
            cases hplace
        | inr hmem => exact ⟨task, hmem⟩
      · rintro ⟨task, hmem⟩
        exact ⟨task, ActiveUser.mem_tasks.mpr (Or.inr hmem), h.udp task hmem⟩

namespace Backend

open BackendRuntime

variable {V : Type} (L : Libraries V)

/-- The backend that a process runs which has started with the settings. -/
def running (settings : Settings) (events : List (BackendEvent V)) : Backend V :=
  after L settings.limits.toRelayLimits settings.config settings.panel.toPanelConfig events

/-- The last list of users that was accepted. -/
def users (config : Config) (b : Backend V) : List PanelUser :=
  inForce config (b.loop.exchanges.filterMap (MainLoop.usersAnswer? L))

/-- The entries of the supervisor, while it runs, are those of the last list. -/
theorem running_entries (settings : Settings) (events : List (BackendEvent V)) :
    let b := running L settings events
    b.loop.phase ≠ .returned (.ok ()) →
    (∀ port, b.loop.runtime.fingerprintAt port =
      (keptRow settings.config.node (b.users L settings.config) port).bind
        (fingerprint? settings.config.node)) ∧
    ∀ (port : UInt16) (active : ActiveUser), b.loop.runtime.activeUsers[port]? = some active →
      active.tcp.isSome = settings.config.node.tcpEnabled ∧
      active.udp.isSome = settings.config.node.udpEnabled ∧ Equipped settings.config active := by
  intro b hruns
  have htied : Tied L settings.config settings.panel.toPanelConfig b := run_tied L _ _ _ events
  have hpolled := MainLoop.run_polled L settings.config settings.panel.toPanelConfig b.trace
  rw [← htied.loop_eq] at hpolled
  have hactive := (hpolled.listeners hruns).activeUsers_eq
  refine ⟨?_, ?_⟩
  · intro port
    rw [fingerprintAt, hactive]
    exact polls_fingerprintAt L.primitives L.fromUser settings.config _ port
  · intro port active hentry
    rw [hactive] at hentry
    have hstocked := polls_stocked L.primitives L.fromUser settings.config _ port active hentry
    have hconfig := polls_config L.primitives L.fromUser (.new settings.config)
      (b.loop.exchanges.filterMap (MainLoop.usersAnswer? L))
    refine ⟨?_, ?_, polls_equipped L.primitives L.fromUser settings.config _ port active hentry⟩
    · rw [hstocked.tcp_isSome, hconfig]
      rfl
    · rw [hstocked.udp_isSome, hconfig]
      rfl

/-- The row of an entry. -/
theorem keptRow_of_fingerprint {node : NodeConfig} {list : List PanelUser} {port : UInt16}
    {fingerprint : UserFingerprint}
    (h : (keptRow node list port).bind (fingerprint? node) = some fingerprint) :
    ∃ row profile, keptRow node list port = some row ∧ Profile.fromUser row node = .ok profile ∧
      fingerprint = fingerprintOf row profile := by
  obtain ⟨row, hkept, hprint⟩ := Option.bind_eq_some_iff.mp h
  rw [fingerprint?] at hprint
  cases hprofile : Profile.fromUser row node with
  | error reason =>
      rw [hprofile] at hprint
      cases hprint
  | ok profile =>
      rw [hprofile] at hprint
      cases hprint
      exact ⟨row, profile, hkept, hprofile, rfl⟩

/-- A port has a row to be served for where a selected row has a profile. -/
theorem keptRow_isSome {node : NodeConfig} {list : List PanelUser} {port : UInt16}
    {row : PanelUser} (hrow : row ∈ selectedRows list port) {profile : Profile}
    (hprofile : Profile.fromUser row node = .ok profile) : (keptRow node list port).isSome := by
  rw [keptRow, List.find?_isSome]
  refine ⟨row, List.mem_reverse.mpr hrow, ?_⟩
  rw [fingerprint?, hprofile]
  rfl

theorem fingerprintAt_isSome_iff {node : NodeConfig} {list : List PanelUser} {port : UInt16} :
    ((keptRow node list port).bind (fingerprint? node)).isSome ↔
      (keptRow node list port).isSome := by
  cases hkept : keptRow node list port with
  | none => rfl
  | some row => simpa using List.find?_some hkept

/-- A backend that has started listens, until it takes the signal and wherever it waits for the
panel or is in its `select!`, on the ports of the last accepted list that have a selected row with
a supported profile, with each protocol that the configuration enables; a row that leaves its
profile to the node is one, for the start has checked the node's; and every listener that has not
been told to stop has been spawned for the row of its port, with its password and profile and the
switches of the configuration. The stops that a poll awaits are part of its step. -/
theorem booted_serves_panel (host : Host) (settings : Settings) (hboot : boot host = .ok settings)
    (events : List (BackendEvent V)) :
    let b := running L settings events
    b.loop.phase ≠ .returned (.ok ()) →
    (∀ port kind, (∃ relay ∈ b.relays, relay.stopping = false ∧ relay.task.place = (port, kind)) ↔
      settings.node.enables kind = true ∧
        (keptRow settings.config.node (b.users L settings.config) port).isSome) ∧
    (∀ port, ∀ row ∈ selectedRows (b.users L settings.config) port, row.method = none →
      row.protocol = none → row.obfs = none →
        (keptRow settings.config.node (b.users L settings.config) port).isSome) ∧
    ∀ relay ∈ b.relays, relay.stopping = false →
      ∃ row, keptRow settings.config.node (b.users L settings.config) relay.task.port = some row ∧
        Profile.fromUser row settings.config.node = .ok relay.task.profile ∧
        relay.task.fingerprint = fingerprintOf row relay.task.profile ∧
        relay.task.enforcement = enforcement settings.config := by
  intro b hruns
  obtain ⟨hprints, hentries⟩ := running_entries L settings events hruns
  obtain ⟨working, hworking, hmanned⟩ := run_workers L settings.limits.toRelayLimits
    settings.config settings.panel.toPanelConfig events
  have hmem : ∀ task, (∃ relay ∈ b.relays, relay.task = task ∧ relay.stopping = false) ↔
      ∃ (port : UInt16) (active : ActiveUser),
        b.loop.runtime.activeUsers[port]? = some active ∧ task ∈ active.tasks := by
    intro task
    exact hmanned.mem_working.symm.trans (hworking.mem_iff task)
  refine ⟨?_, ?_, ?_⟩
  · intro port kind
    have hkept : (keptRow settings.config.node (b.users L settings.config) port).isSome ↔
        ∃ active, b.loop.runtime.activeUsers[port]? = some active := by
      rw [← fingerprintAt_isSome_iff, ← hprints port, fingerprintAt, Option.isSome_map,
        Option.isSome_iff_exists]
    rw [hkept]
    constructor
    · rintro ⟨relay, hrelay, hstopping, hplace⟩
      obtain ⟨port', active, hentry, htask⟩ := (hmem relay.task).mp ⟨relay, hrelay, rfl, hstopping⟩
      have hplaced := hworking.placed port' active hentry
      have hport : port' = port :=
        (hplaced.port_eq htask).symm.trans (congrArg Prod.fst hplace)
      subst hport
      obtain ⟨htcp, hudp, -⟩ := hentries port' active hentry
      exact ⟨(hplaced.exists_iff htcp hudp kind).mp ⟨relay.task, htask, hplace⟩, active, hentry⟩
    · rintro ⟨henables, active, hentry⟩
      obtain ⟨htcp, hudp, -⟩ := hentries port active hentry
      obtain ⟨task, htask, hplace⟩ :=
        ((hworking.placed port active hentry).exists_iff htcp hudp kind).mpr henables
      obtain ⟨relay, hrelay, rfl, hstopping⟩ := (hmem task).mpr ⟨port, active, hentry, htask⟩
      exact ⟨relay, hrelay, hstopping, hplace⟩
  · intro port row hrow hmethod hprotocol hobfs
    obtain ⟨profile, hprofile⟩ := (boot_ok_iff.mp hboot).2.1.fromUser_ok hmethod hprotocol hobfs
    exact keptRow_isSome hrow hprofile
  · intro relay hrelay hstopping
    obtain ⟨port, active, hentry, htask⟩ := (hmem relay.task).mp ⟨relay, hrelay, rfl, hstopping⟩
    have hport := (hworking.placed port active hentry).port_eq htask
    have hprint := hprints port
    rw [fingerprintAt, hentry] at hprint
    obtain ⟨row, profile, hkept, hprofile, heq⟩ := keptRow_of_fingerprint hprint.symm
    obtain ⟨-, -, hequipped⟩ := hentries port active hentry
    obtain ⟨hfingerprint, henforcement⟩ := hequipped relay.task htask
    have hsame : relay.task.profile = profile :=
      congrArg UserFingerprint.profile (hfingerprint.trans heq)
    rw [hport, hsame]
    exact ⟨row, hkept, hprofile, hfingerprint.trans heq, henforcement⟩

theorem sample_users :
    (running sampleLibraries sampleFile.settings (sampleStart.map .supervisor)).users
      sampleLibraries sampleFile.settings.config = [Accounting.billedRow] := rfl

theorem booted_serves_panel_sample :
    let b := running sampleLibraries sampleFile.settings (sampleStart.map .supervisor)
    boot sampleHost = .ok sampleFile.settings ∧ b.loop.phase = .select ∧
      ∃ relay ∈ b.relays, relay.stopping = false ∧ relay.task.place = (443, .udp) := by
  intro b
  have hphase : b.loop.phase = .select := rfl
  have hruns : b.loop.phase ≠ .returned (.ok ()) := by
    rw [hphase]
    rintro ⟨⟩
  obtain ⟨hplaces, hrows, -⟩ := booted_serves_panel sampleLibraries sampleHost sampleFile.settings
    sample_boot (sampleStart.map .supervisor) hruns
  have hrow : Accounting.billedRow ∈
      selectedRows (b.users sampleLibraries sampleFile.settings.config) 443 := by
    rw [sample_users]
    exact List.mem_singleton_self _
  exact ⟨sample_boot, hphase, (hplaces 443 .udp).mpr
    ⟨rfl, hrows 443 Accounting.billedRow hrow rfl rfl rfl⟩⟩

end Backend

end SsrBackend
