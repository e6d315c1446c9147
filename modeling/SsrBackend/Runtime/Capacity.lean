import SsrBackend.Relay.Emissions
import SsrBackend.Runtime.Components
import SsrBackend.Runtime.ListenerRuns
import SsrBackend.Runtime.PollWaits
import SsrBackend.Runtime.TtlMapRuns

/-!
What the backend holds at one time. The tables and the entries are those of a list of
users that was accepted, the three maps of the runtime and the associations of a UDP
listener evict, and the sessions of a TCP listener need permits; so that the limits of
the configuration bound all of it, whatever the panel, the clients and the targets do.
The states are those at the supervisor's waits for the panel and in its `select!`; of
the stops that are awaited within a poll the bounds are said apart, and are twice as large.
-/

namespace SsrBackend

open Call

/-! ### The listeners -/

theorem TcpListener.RunOn.holding_le {P : Primitives} {cfg : TcpConfig}
    {published : List UserTables} {l : TcpListener} (h : l.RunOn P cfg published) :
    l.holding ≤ max cfg.maxAccepts 1 := by
  obtain ⟨tables, -, hreaches⟩ := h
  have hkept : l.permits + l.holding = max cfg.maxAccepts 1 := by
    apply hreaches.keeps (Q := fun l => l.permits + l.holding = max cfg.maxAccepts 1)
    · intro l event _ h
      rw [step_permits, h]
    · exact Nat.add_zero _
  omega

namespace UdpListener

variable {P : Primitives} {ttl capacity : Nat} {ctx : UdpContext}

/-- A part of the work that keeps the associations within their bound. -/
def Confined (ttl capacity : Nat) (s s' : UdpListener) : Prop :=
  s.associations.Bounded ttl capacity → s'.associations.Bounded ttl capacity

theorem confined_chains : Chains (Confined ttl capacity) := by
  constructor
  · intro s h
    exact h
  · intro s s' s'' h h' hs
    exact h' (h hs)

theorem associate_confined (key : AssociationKey) (signWith : List UInt8) (counters : Handle)
    (inbound : Inbound) :
    Does (Confined ttl capacity) (fun _ => True) (fun _ => True)
      (associate ctx key signWith counters inbound) := by
  refine ⟨?_, fun _ _ _ => trivial, fun _ _ _ => trivial⟩
  intro s hs
  rw [associate, run_get_bind]
  dsimp only
  cases (s.associations.touch key inbound.touchAt).1 with
  | some association => exact BoundedTtlMap.touch_bounded hs key inbound.touchAt
  | none =>
      cases inbound.bind with
      | error reason => exact hs
      | ok _ => exact BoundedTtlMap.insert_bounded hs key _ inbound.insertAt inbound.walk

theorem handleInbound_confined (tables : UserTables) (inbound : Inbound) :
    Does (Confined ttl capacity) (fun _ => True) (fun _ => True)
      (handleInbound P ctx tables inbound) := by
  have hcomposes : Composes ctx inbound (Confined ttl capacity) := by
    refine ⟨confined_chains, fun _ _ => .modify fun _ h => h, ?_⟩
    intro key signWith counters
    exact associate_confined key signWith counters inbound
  exact hcomposes.handleInbound tables

theorem close_confined (s : UdpListener) : Confined ttl capacity s s.close :=
  fun h => BoundedTtlMap.step_bounded h (.retain fun _ _ => false)

theorem step_confined (s : UdpListener) (event : UdpEvent) :
    Confined ttl capacity s (step P ctx s event) := by
  intro h
  cases event with
  | republish tables => exact h
  | datagram inbound =>
      have hexpired := BoundedTtlMap.step_bounded h (.expire inbound.expireAt)
      have hdoes : Does (Confined ttl capacity) (fun _ => True) (fun _ => True)
          (handleInbound P ctx s.tables inbound) := handleInbound_confined s.tables inbound
      exact step_datagram (Q := fun s => s.associations.Bounded ttl capacity) h
        (hdoes.state _ hexpired) close_confined
  | response key source data getrandom sent =>
      rw [step]
      cases s.pumpOf? key with
      | none => exact h
      | some association =>
          obtain ⟨-, -, -, -, -, -, -, hmap⟩ :=
            pumpTurn_aside (P := P) s key association source data getrandom sent
          dsimp only
          rw [hmap]
          exact h
  | pumpFailed key =>
      rw [step]
      cases s.pumpOf? key with
      | none => exact h
      | some association => exact h
  | stop => exact close_confined s h

theorem RunOn.associations_le {limits : RelayLimits} {published : List UserTables}
    {l : UdpListener} (h : l.RunOn P limits ctx published) :
    l.associations.len ≤ max limits.maxUdpAssociations 1 := by
  obtain ⟨tables, -, hreaches⟩ := h
  have hbounded : l.associations.Bounded limits.udpAssociationTtl
      (max limits.maxUdpAssociations 1) :=
    hreaches.keeps (Q := fun l => l.associations.Bounded limits.udpAssociationTtl
      (max limits.maxUdpAssociations 1)) (fun s event _ hs => step_confined s event hs)
      (BoundedTtlMap.new_bounded _ _)
  have hsize := hbounded.size_le
  rw [BoundedTtlMap.len]
  omega

end UdpListener

/-! ### The runtime -/

namespace BackendRuntime

/-- The tables and the entries are those of a list that was not too long. -/
structure Listed (config : Config) (rt : BackendRuntime) : Prop where
  config_eq : rt.config = config
  serving : ∃ users : List PanelUser, users.length ≤ config.limits.maxUsers ∧ Serving users rt ∧
    ∀ port ∈ rt.activeUsers, port ∈ users.map PanelUser.port

theorem new_listed (config : Config) : Listed config (new config) :=
  ⟨rfl, [], Nat.zero_le _, new_serving config, fun _ hmem => absurd hmem Std.HashMap.not_mem_empty⟩

variable (P : Primitives) (fromUser : PanelUser → UserPolicy)

/-- A poll leaves entries only for the ports of its list. -/
theorem applyUsers_ports {users : List PanelUser} {rt : BackendRuntime} {port : UInt16}
    (hport : port ∈ (applyUsers P fromUser users rt).activeUsers) :
    port ∈ users.map PanelUser.port := by
  have hprint := (applyUsers_port P fromUser users rt port).1
  rw [portRows_getLast?] at hprint
  cases hkept : keptRow rt.config.node users port with
  | none =>
      rw [hkept, fingerprintAt, Std.HashMap.getElem?_eq_some_getElem hport] at hprint
      cases hprint
  | some row => exact List.mem_map.mpr ⟨row, keptRow_mem hkept, keptRow_port hkept⟩

theorem synced_listed {config : Config} {rt : BackendRuntime} (h : Listed config rt)
    (answer : Except String (List PanelUser)) : Listed config (synced P fromUser answer rt) := by
  cases answer with
  | error reason => exact h
  | ok users =>
      by_cases hmax : rt.config.limits.maxUsers < users.length
      · rw [(synced_rejects P fromUser (Or.inr ⟨users, rfl, hmax⟩)).1]
        exact h
      · rw [(synced_accepts P fromUser (not_rejects_ok hmax)).1]
        refine ⟨?_, users, ?_, applyUsers_serving P fromUser users rt, ?_⟩
        · rw [(applyUsers_touches P fromUser users rt).config_eq, h.config_eq]
        · rw [← h.config_eq]
          exact Nat.not_lt.mp hmax
        · intro port hport
          exact applyUsers_ports P fromUser hport

theorem TrafficMoved.listed {config : Config} {rt rt' : BackendRuntime} (h : Listed config rt)
    (hmoved : TrafficMoved rt rt') : Listed config rt' := by
  obtain ⟨traffic, sessions, aliveIps, detectLogs, hsame, rfl⟩ := hmoved
  obtain ⟨users, hlength, hserving, hports⟩ := h.serving
  refine ⟨h.config_eq, users, hlength, ⟨?_, hserving.conns, hserving.speeds, hserving.auth,
    hserving.policies⟩, hports⟩
  rw [hsame.entries_eq]
  exact hserving.counters

theorem stopAll_listed {config : Config} {rt : BackendRuntime} (h : Listed config rt) :
    Listed config rt.stopAll := by
  obtain ⟨users, hlength, hserving, -⟩ := h.serving
  exact ⟨h.config_eq, users, hlength,
    ⟨hserving.counters, hserving.conns, hserving.speeds, hserving.auth, hserving.policies⟩,
    fun _ hmem => absurd hmem Std.HashMap.not_mem_empty⟩

/-- The loop over the rows leaves the maps alone. -/
theorem publishTables_maps (users : List PanelUser) (rt : BackendRuntime) :
    let published := publishTables P fromUser users rt
    published.sessions = rt.sessions ∧ published.aliveIps = rt.aliveIps ∧
      published.detectLogs = rt.detectLogs := by
  have hregister : ∀ acc : BackendRuntime × UserTables,
      let built := (users.foldl (registerUser P fromUser) acc).1
      built.sessions = acc.1.sessions ∧ built.aliveIps = acc.1.aliveIps ∧
        built.detectLogs = acc.1.detectLogs := by
    induction users with
    | nil => exact fun _ => ⟨rfl, rfl, rfl⟩
    | cons user users ih => exact fun acc => ih (registerUser P fromUser acc user)
  exact hregister (rt, .empty)

/-- A poll retains sessions or leaves them. -/
theorem synced_sessions (answer : Except String (List PanelUser)) (rt : BackendRuntime) :
    ∃ op, (synced P fromUser answer rt).sessions = rt.sessions.apply op := by
  rcases synced_cases P fromUser answer rt with hsame | ⟨users, -, happly⟩
  · rw [hsame]
    exact ⟨.idle, rfl⟩
  · obtain ⟨hpublish, -, -⟩ := publishTables_maps P fromUser users rt
    obtain ⟨_, _, _, heq⟩ := applyUsers_moved P fromUser users rt
    refine ⟨.retain fun key => isLive users key.userId, ?_⟩
    rw [happly, heq, ← hpublish]
    rfl

/-- The keys of the ledgers are users of the list, whether or not it was the last one sent. -/
theorem Listed.among {config : Config} {rt : BackendRuntime} (h : Listed config rt)
    (hchecked : rt.traffic.Checked) : ∃ users : List PanelUser,
      users.length ≤ config.limits.maxUsers ∧
      Among (users.map PanelUser.userId) (users.map PanelUser.port) rt := by
  obtain ⟨users, hlength, hserving, hports⟩ := h.serving
  have hentries {entries table : Std.HashMap Nat Nat} (hmirrors : Mirrors users entries table) :
      ∀ u ∈ entries, u ∈ users.map PanelUser.userId := by
    intro u hu
    rw [← List.mem_reverse, ← isLive_iff, ← hmirrors.mem_iff,
      ← Std.HashMap.isSome_getElem?_iff_mem, hmirrors.table_eq]
    exact Std.HashMap.isSome_getElem?_iff_mem.mpr hu
  have hcounters := hentries hserving.counters
  exact ⟨users, hlength, hcounters, fun u hu => hcounters u (hchecked u hu),
    hentries hserving.conns, hentries hserving.speeds, hports⟩

theorem Listed.sized {config : Config} {rt : BackendRuntime} (h : Listed config rt)
    (hchecked : rt.traffic.Checked) : rt.Sized config.limits.maxUsers := by
  obtain ⟨users, hlength, hamong⟩ := h.among hchecked
  exact hamong.sized (by rwa [List.length_map]) (by rwa [List.length_map])

/-- At a wait of the poll of a list that is not too long, what is held is of two such lists. -/
theorem Awaits.sized {config : Config} {users : List PanelUser} {rt mid : BackendRuntime}
    (hwaits : Awaits P fromUser users rt mid) (h : Listed config rt)
    (hchecked : rt.traffic.Checked) (hlength : users.length ≤ config.limits.maxUsers) :
    mid.Sized (2 * config.limits.maxUsers) := by
  obtain ⟨before, hbefore, hamong⟩ := h.among hchecked
  apply (hwaits.among hamong).sized
  · rw [List.length_append, List.length_map, List.length_map]
    omega
  · rw [List.length_append, List.length_map, List.length_map]
    omega

/-- The listeners at work at a moment of a poll: those from before it and two for a row. -/
theorem applyUsers_peaked {config : Config} {users : List PanelUser} {rt : BackendRuntime}
    {working : List ListenerTask} (hmanaged : Managed rt working)
    (hsized : rt.Sized config.limits.maxUsers) (h : rt.Peaked (4 * config.limits.maxUsers))
    (hlength : users.length ≤ config.limits.maxUsers) :
    (applyUsers P fromUser users rt).Peaked (4 * config.limits.maxUsers) := by
  obtain ⟨working', hmanaged'⟩ := applyUsers_managed P fromUser hmanaged users
  obtain ⟨done, hdone, -⟩ := (applyUsers_touches P fromUser users rt).actions_eq
  apply h.grows hmanaged hmanaged' ⟨done, hdone.symm⟩
  have hworking := hmanaged.length_le
  have hnext := applyUsers_nextTask P fromUser users rt
  have hactive := hsized.active
  omega

theorem synced_peaked {config : Config} {rt : BackendRuntime} {working : List ListenerTask}
    (hlisted : Listed config rt) (hmanaged : Managed rt working)
    (hsized : rt.Sized config.limits.maxUsers) (h : rt.Peaked (4 * config.limits.maxUsers))
    (answer : Except String (List PanelUser)) :
    (synced P fromUser answer rt).Peaked (4 * config.limits.maxUsers) := by
  cases answer with
  | error reason => exact h
  | ok users =>
      by_cases hmax : rt.config.limits.maxUsers < users.length
      · rw [(synced_rejects P fromUser (Or.inr ⟨users, rfl, hmax⟩)).1]
        exact h
      · rw [(synced_accepts P fromUser (not_rejects_ok hmax)).1]
        rw [hlisted.config_eq] at hmax
        exact applyUsers_peaked P fromUser hmanaged hsized h (Nat.not_lt.mp hmax)

theorem stopAll_peaked {n : Nat} {rt : BackendRuntime} {working : List ListenerTask}
    (hmanaged : Managed rt working) (hworking : working.length ≤ n) (h : rt.Peaked n) :
    rt.stopAll.Peaked n :=
  h.grows hmanaged (stopAll_managed hmanaged) (List.prefix_append _ _)
    (Nat.add_le_add_right hworking _)

end BackendRuntime

namespace MainLoop

variable {V : Type} (L : Libraries V)

theorem reportAuxiliaryState_sessions (s : MainLoop V) :
    s.reportAuxiliaryState.runtime.sessions = s.runtime.sessions := by
  rw [reportAuxiliaryState]
  split <;> rfl

theorem answered_sessions (s : MainLoop V) (reply : HttpReply V) (session alive detect : Nat) :
    ∃ op, (s.answered L reply session alive detect).runtime.sessions =
      s.runtime.sessions.apply op := by
  rw [answered]
  cases s.phase with
  | firstRules =>
      dsimp only [enter]
      rw [refreshDetectRules_runtime]
      exact ⟨.idle, rfl⟩
  | firstUsers => exact BackendRuntime.synced_sessions L.primitives L.fromUser _ s.runtime
  | pollUsers => exact BackendRuntime.synced_sessions L.primitives L.fromUser _ s.runtime
  | pollRules =>
      dsimp only [enter, expireLocalState, BackendRuntime.expireLocalState]
      rw [refreshDetectRules_runtime]
      exact ⟨.expire session, rfl⟩
  | traffic deltas =>
      refine ⟨.idle, ?_⟩
      dsimp only
      rw [reportAuxiliaryState_sessions]
      cases PanelClient.readAck L.serde (PanelClient.reportTraffic s.panel deltas) reply <;> rfl
  | aliveIps items =>
      refine ⟨.idle, ?_⟩
      dsimp only
      split <;> rfl
  | detectLogs items =>
      refine ⟨.idle, ?_⟩
      dsimp only
      split <;> rfl
  | _ => exact ⟨.idle, rfl⟩

theorem step_sessions (s : MainLoop V) (event : LoopEvent V) :
    ∃ op, (step L s event).runtime.sessions = s.runtime.sessions.apply op := by
  cases event with
  | reply reply session alive detect =>
      exact answered_sessions L (s.exchanged reply) reply session alive detect
  | emit event =>
      refine ⟨.idle, ?_⟩
      rw [step, emit]
      split
      · rfl
      · split <;> rfl
  | record snapshot userId direction bytes =>
      refine ⟨.idle, ?_⟩
      rw [step, record]
      split <;> rfl
  | received session alive detect =>
      rw [step, inSelect]
      cases s.phase with
      | select =>
          dsimp only
          rcases receive_eq s session alive detect with ⟨-, heq⟩ | ⟨event, queue, -, heq⟩
          · rw [heq]
            exact ⟨.idle, rfl⟩
          · rw [heq]
            cases event with
            | connect userId ip peer =>
                exact ⟨.record ⟨userId, peer⟩ () session.now session.walk, rfl⟩
            | detect userId listId ip => exact ⟨.idle, rfl⟩
      | _ => exact ⟨.idle, rfl⟩
  | trafficTick =>
      refine ⟨.idle, ?_⟩
      rw [step, inSelect]
      split
      · rw [reportTraffic]
        split
        · exact reportAuxiliaryState_sessions s
        · rfl
      · rfl
  | pollTick =>
      refine ⟨.idle, ?_⟩
      rw [step, inSelect]
      split <;> rfl
  | heartbeatTick uptime =>
      refine ⟨.idle, ?_⟩
      rw [step, inSelect]
      split <;> rfl
  | shutdown =>
      refine ⟨.idle, ?_⟩
      rw [step, inSelect]
      split <;> rfl

/-- The runtime keeps to the limits of its configuration. -/
structure Contained (config : Config) (s : MainLoop V) : Prop where
  listed : s.runtime.Listed config
  checked : s.runtime.traffic.Checked
  peaked : s.runtime.Peaked (4 * config.limits.maxUsers)
  sessions : s.runtime.sessions.Bounded config.limits.sessionTtlSecs config.limits.maxSessions
  aliveIps : s.runtime.aliveIps.Bounded config.limits.aliveIpTtlSecs config.limits.maxAliveIps
  detectLogs : s.runtime.detectLogs.Bounded config.limits.detectLogTtlSecs
    config.limits.maxDetectLogs

theorem step_checked {s : MainLoop V} (h : s.runtime.traffic.Checked) (event : LoopEvent V) :
    (step L s event).runtime.traffic.Checked := by
  obtain ⟨rt, -, htraffic, -, heq⟩ := step_ledgers L s event
  have hruntime : (step L s event).runtime = rt := congrArg Accounting.runtime heq
  rw [hruntime, htraffic, booked]
  cases s.ledgerEvent L event with
  | none => exact h
  | some ledgerEvent =>
      have hbooks : s.books.ledger.Checked := h
      exact Accounting.step_checked hbooks ledgerEvent

theorem step_contained {config : Config} {s : MainLoop V} (htended : s.Tended)
    (h : s.Contained config) (event : LoopEvent V) : (step L s event).Contained config := by
  obtain ⟨halive, hdetect⟩ := step_maps L s event
  obtain ⟨op, hsessions⟩ := step_sessions L s event
  obtain ⟨working, hmanaged⟩ := htended.managed
  have hsized := h.listed.sized h.checked
  have hworking : working.length ≤ 4 * config.limits.maxUsers := by
    have hle := hmanaged.length_le
    have hactive := hsized.active
    omega
  have hmoved : (step L s event).runtime.Listed config ∧
      (step L s event).runtime.Peaked (4 * config.limits.maxUsers) := by
    rcases step_moved L s event with ⟨-, hmoved⟩ | ⟨answer, -, hmoved⟩ | ⟨-, -, heq⟩
    · exact ⟨hmoved.listed h.listed,
        h.peaked.of_actions (hmoved.sameListeners.actions_eq ▸ List.prefix_rfl)⟩
    · have hlisted := BackendRuntime.synced_listed L.primitives L.fromUser h.listed answer
      have hpeaked := BackendRuntime.synced_peaked L.primitives L.fromUser h.listed hmanaged hsized
        h.peaked answer
      exact ⟨hmoved.listed hlisted,
        hpeaked.of_actions (hmoved.sameListeners.actions_eq ▸ List.prefix_rfl)⟩
    · rw [heq]
      exact ⟨BackendRuntime.stopAll_listed h.listed,
        BackendRuntime.stopAll_peaked hmanaged hworking h.peaked⟩
  refine ⟨hmoved.1, step_checked L h.checked event, hmoved.2, ?_, ?_, ?_⟩
  · rw [hsessions]
    exact BoundedTtlMap.apply_bounded h.sessions op
  · rw [halive]
    exact BoundedTtlMap.apply_bounded h.aliveIps _
  · rw [hdetect]
    exact BoundedTtlMap.apply_bounded h.detectLogs _

theorem run_contained (config : Config) (panel : PanelConfig) (events : List (LoopEvent V)) :
    (after L config panel events).Contained config := by
  have hpeaked : (BackendRuntime.new config).Peaked (4 * config.limits.maxUsers) := by
    intro front hfront
    rw [List.prefix_nil.mp hfront]
    exact ⟨⟨[], 0⟩, rfl, Nat.zero_le _⟩
  have hstart : (start config panel : MainLoop V).Contained config :=
    ⟨BackendRuntime.new_listed config, fun u hu => absurd hu Std.HashMap.not_mem_empty, hpeaked,
      BoundedTtlMap.new_bounded _ _, BoundedTtlMap.new_bounded _ _,
      BoundedTtlMap.new_bounded _ _⟩
  have hstep : ∀ (s : MainLoop V) (event : LoopEvent V), s.Tended ∧ s.Contained config →
      (step L s event).Tended ∧ (step L s event).Contained config :=
    fun s event h => ⟨step_tended L h.1 event, step_contained L h.1 h.2 event⟩
  exact (Machine.run_keeps hstep ⟨start_tended config panel, hstart⟩ events).2

end MainLoop

/-! ### The whole -/

/-- The tables have at most so many users. -/
structure UserTables.AtMost (n : Nat) (tables : UserTables) : Prop where
  authUsers : tables.authUsers.size ≤ n
  countersByUser : tables.countersByUser.size ≤ n
  connsByUser : tables.connsByUser.size ≤ n
  speedsByUser : tables.speedsByUser.size ≤ n
  policies : tables.policies.size ≤ n

namespace BackendRuntime

theorem size_le_of_live {ν : Type} {users : List PanelUser} {m : Std.HashMap Nat ν}
    (h : ∀ u ∈ m, isLive users u) : m.size ≤ users.length := by
  have hkeys : ∀ u ∈ m, u ∈ (users.map PanelUser.userId).reverse :=
    fun u hu => (isLive_iff users u).mp (h u hu)
  simpa using size_le_of_keys hkeys

theorem Listed.atMost {config : Config} {rt : BackendRuntime} (h : Listed config rt) :
    rt.tables.AtMost config.limits.maxUsers := by
  obtain ⟨users, hlength, hserving, -⟩ := h.serving
  have htable {entries table : Std.HashMap Nat Nat} (hmirrors : Mirrors users entries table) :
      table.size ≤ config.limits.maxUsers :=
    (size_le_of_live fun u hu => (hmirrors.mem_iff u).mp hu).trans hlength
  exact ⟨(size_le_of_live hserving.auth).trans hlength, htable hserving.counters,
    htable hserving.conns, htable hserving.speeds, (size_le_of_live hserving.policies).trans hlength⟩

/-- Tables that are just published. -/
theorem Published.atMost {ids : List Nat} {rt : BackendRuntime} {tables : UserTables}
    (h : Published ids rt tables) {n : Nat} (hids : ids.length ≤ n) : tables.AtMost n := by
  have htable {entries table : Std.HashMap Nat Nat} (htracks : Tracks ids entries table) :
      table.size ≤ n :=
    (size_le_of_keys fun u hu => (htracks.mem_iff u).mp hu).trans hids
  exact ⟨(size_le_of_keys h.auth).trans hids, htable h.counters, htable h.conns, htable h.speeds,
    (size_le_of_keys h.policies).trans hids⟩

/-- At a wait of a poll the new tables are published and no map has been retained yet. -/
theorem Awaits.apart {P : Primitives} {fromUser : PanelUser → UserPolicy}
    {users : List PanelUser} {rt mid : BackendRuntime} (h : Awaits P fromUser users rt mid) {n : Nat}
    (hlength : users.length ≤ n) : mid.tables.AtMost n ∧ mid.sessions = rt.sessions ∧
      mid.aliveIps = rt.aliveIps ∧ mid.detectLogs = rt.detectLogs := by
  have hpublished := publishTables_published P fromUser users rt
  have hmaps := publishTables_maps P fromUser users rt
  obtain ⟨_, _, _, rfl⟩ := h.moved
  refine ⟨hpublished.atMost ?_, hmaps⟩
  rwa [List.length_reverse, List.length_map]

end BackendRuntime

/-- The limit of the accepts is the one of the configuration. -/
theorem ListenerTask.args_maxAccepts {P : Primitives} {limits : RelayLimits} {task : ListenerTask}
    {cfg : TcpConfig} (h : task.args? P limits = some (.tcp cfg)) :
    cfg.maxAccepts = limits.maxAcceptsPerPort := by
  rw [args?, ListenerLoop.opened] at h
  cases hkind : (task.profile.cipherKind : Outcome String CipherKind) with
  | ok kind =>
      rw [hkind] at h
      cases htask : task.kind with
      | tcp =>
          rw [htask] at h
          cases h
          rfl
      | udp =>
          rw [htask] at h
          cases h
  | err e =>
      rw [hkind] at h
      cases h
  | panic =>
      rw [hkind] at h
      cases h

namespace Backend

variable {V : Type} (L : Libraries V) (limits : RelayLimits)

/-- In every run of the backend what it holds is bounded by its configuration, whatever the panel
answers and the clients and targets send. At the supervisor's waits for the panel and in its
`select!` the tables, the ledgers with their checkpoints and the entries have at most as many keys
as the limit of users, and at most twice as many listeners have not been told to stop. In the
states from there in which a poll awaits the stop of a listener the ledgers and the entries have
at most twice the limit and the maps are as they were; and at every moment of the log, between two
stops as well, at most four times the limit of listeners have not been told to stop. The three
maps and the channel keep to their own limits, the sessions of a TCP listener to the limit of
accepts and the associations of a UDP listener to that of associations. -/
theorem resources_bounded (config : Config) (panel : PanelConfig)
    (events : List (BackendEvent V)) :
    let b := after L limits config panel events
    let rt := b.loop.runtime
    (rt.tables.AtMost config.limits.maxUsers ∧ rt.Sized config.limits.maxUsers) ∧
    (b.relays.filter fun relay => !relay.stopping).length ≤ 2 * config.limits.maxUsers ∧
    rt.Peaked (4 * config.limits.maxUsers) ∧
    (∀ users mid, users.length ≤ config.limits.maxUsers →
      BackendRuntime.Awaits L.primitives L.fromUser users rt mid →
      mid.tables.AtMost config.limits.maxUsers ∧ mid.Sized (2 * config.limits.maxUsers) ∧
        mid.Peaked (4 * config.limits.maxUsers) ∧ mid.sessions = rt.sessions ∧
        mid.aliveIps = rt.aliveIps ∧ mid.detectLogs = rt.detectLogs) ∧
    rt.sessions.len ≤ max config.limits.maxSessions 1 ∧
    rt.aliveIps.len ≤ max config.limits.maxAliveIps 1 ∧
    rt.detectLogs.len ≤ max config.limits.maxDetectLogs 1 ∧
    b.loop.queue.items.length ≤ eventChannelCapacity ∧
    ∀ relay ∈ b.relays,
      (∀ cfg listener, relay.loop = .tcp cfg listener →
        listener.holding ≤ max limits.maxAcceptsPerPort 1) ∧
      ∀ ctx listener, relay.loop = .udp ctx listener →
        listener.associations.len ≤ max limits.maxUdpAssociations 1 := by
  intro b rt
  have hcontained : b.loop.Contained config := by
    rw [(run_tied L limits config panel events).loop_eq]
    exact MainLoop.run_contained L config panel b.trace
  have hsized := hcontained.listed.sized hcontained.checked
  obtain ⟨working, hworking, hmanned⟩ := run_workers L limits config panel events
  refine ⟨⟨hcontained.listed.atMost, hsized⟩, ?_, hcontained.peaked, ?_,
    hcontained.sessions.size_le, hcontained.aliveIps.size_le, hcontained.detectLogs.size_le,
    b.loop.queue.fits, ?_⟩
  · have hsame : working = (b.relays.filter fun relay => !relay.stopping).map Relay.task :=
      hmanned.working_eq
    have hle := hworking.length_le
    rw [hsame, List.length_map] at hle
    exact Nat.le_trans hle (Nat.mul_le_mul_left 2 hsized.active)
  · intro users mid hlength hwaits
    obtain ⟨htables, hmaps⟩ := hwaits.apart hlength
    have hpeaked := BackendRuntime.applyUsers_peaked L.primitives L.fromUser hworking hsized
      hcontained.peaked hlength
    exact ⟨htables, hwaits.sized _ _ hcontained.listed hcontained.checked hlength,
      hpeaked.of_actions hwaits.actions_prefix, hmaps⟩
  · intro relay hmem
    have hserves := (run_staffed L limits config panel events).serves relay hmem
    have hruns := run_separate L limits config panel events relay hmem
    refine ⟨?_, ?_⟩
    · intro cfg listener hloop
      rw [hloop] at hruns
      have hargs : cfg.maxAccepts = limits.maxAcceptsPerPort :=
        ListenerTask.args_maxAccepts (hserves.args (.tcp cfg) (by rw [hloop]; rfl))
      rw [← hargs]
      exact TcpListener.RunOn.holding_le hruns
    · intro ctx listener hloop
      rw [hloop] at hruns
      exact UdpListener.RunOn.associations_le hruns

end Backend

end SsrBackend
