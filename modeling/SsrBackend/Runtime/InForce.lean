import SsrBackend.Runtime.Lifecycle

/-!
What the node has in force. The tables that the relays look users up in, the
listeners and the detect rules are functions of the panel's answers alone: whatever
is recorded, emitted or reported between two polls, they are those of the answers
applied one after another. A poll reads of the ledgers only which handle a user has.
-/

namespace SsrBackend

theorem TrafficLedger.ensureUser_sameHandles {l l' : TrafficLedger}
    (h : l.counters.SameHandles l'.counters) (userId : Nat) :
    (l'.ensureUser userId).1 = (l.ensureUser userId).1 ∧
      (l.ensureUser userId).2.counters.SameHandles (l'.ensureUser userId).2.counters := by
  have hensure := h.ensure userId {} id
  rw [ensureUser, ensureUser, h.entries_eq]
  cases l.counters.entries[userId]? with
  | some handle => exact ⟨rfl, h⟩
  | none => exact hensure

namespace BackendRuntime

/-- The two runtimes serve alike: they have the same settings, tables and handles. -/
structure ServesAlike (rt rt' : BackendRuntime) : Prop where
  config_eq : rt'.config = rt.config
  tables_eq : rt'.tables = rt.tables
  traffic : rt.traffic.counters.SameHandles rt'.traffic.counters
  conns : rt.conns.SameHandles rt'.conns
  speeds : rt.speeds.SameHandles rt'.speeds

variable (P : Primitives) (fromUser : PanelUser → UserPolicy) {rt rt' : BackendRuntime}

theorem registerUsers_alike (users : List PanelUser) {acc acc' : BackendRuntime × UserTables}
    (h : ServesAlike acc.1 acc'.1) (htables : acc'.2 = acc.2) :
    ServesAlike (users.foldl (registerUser P fromUser) acc).1
        (users.foldl (registerUser P fromUser) acc').1 ∧
      (users.foldl (registerUser P fromUser) acc').2 =
        (users.foldl (registerUser P fromUser) acc).2 := by
  induction users generalizing acc acc' with
  | nil => exact ⟨h, htables⟩
  | cons user users ih =>
      obtain ⟨hcounter, htraffic⟩ := TrafficLedger.ensureUser_sameHandles h.traffic user.userId
      obtain ⟨hconn, hconns⟩ := h.conns.ensure user.userId ∅ id
      obtain ⟨hspeed, hspeeds⟩ := h.speeds.ensure user.userId (fromUser user).speedLimitBps
        fun _ => (fromUser user).speedLimitBps
      apply ih
      · exact ⟨h.config_eq, h.tables_eq, htraffic, hconns, hspeeds⟩
      · rw [registerUser, registerUser, htables]
        dsimp only [ConnLedger.ensureUser, SpeedLedger.ensureUser]
        rw [hcounter, hconn, hspeed]

theorem applyUsers_alike (h : ServesAlike rt rt') (users : List PanelUser) :
    ServesAlike (applyUsers P fromUser users rt) (applyUsers P fromUser users rt') := by
  have hacc : ServesAlike (rt, UserTables.empty).1 (rt', UserTables.empty).1 := h
  obtain ⟨hbuilt, htables⟩ := registerUsers_alike P fromUser users hacc rfl
  have hsame := applyUsers_ledgers P fromUser users rt
  have hsame' := applyUsers_ledgers P fromUser users rt'
  refine ⟨?_, ?_, ?_, ?_, ?_⟩
  · rw [(applyUsers_touches P fromUser users rt').config_eq,
      (applyUsers_touches P fromUser users rt).config_eq, h.config_eq]
  · rw [hsame.tables_eq, hsame'.tables_eq]
    exact htables
  · rw [hsame.traffic_eq, hsame'.traffic_eq]
    exact hbuilt.traffic.retain (isLive users)
  · rw [hsame.conns_eq, hsame'.conns_eq]
    exact hbuilt.conns.retain (isLive users)
  · rw [hsame.speeds_eq, hsame'.speeds_eq]
    exact hbuilt.speeds.retain (isLive users)

theorem removePort_sameListeners (h : SameListeners rt rt') (port : UInt16) :
    SameListeners (rt.removePort port) (rt'.removePort port) := by
  rw [removePort, removePort, h.activeUsers_eq]
  cases rt.activeUsers[port]? with
  | none => exact h
  | some active =>
      refine ⟨?_, h.nextTask_eq, ?_⟩
      · rfl
      · dsimp only
        rw [h.actions_eq]

theorem spawnIf_sameListeners (h : SameListeners rt rt') (hconfig : rt'.config = rt.config)
    (enabled : Bool) (kind : ListenerKind) (user : PanelUser) (profile : Profile) :
    (rt'.spawnIf enabled kind user profile).1 = (rt.spawnIf enabled kind user profile).1 ∧
      SameListeners (rt.spawnIf enabled kind user profile).2
        (rt'.spawnIf enabled kind user profile).2 := by
  cases enabled with
  | false => exact ⟨rfl, h⟩
  | true =>
      dsimp only [spawnIf, spawnListener, if_true]
      rw [h.nextTask_eq, h.actions_eq, hconfig]
      exact ⟨rfl, h.activeUsers_eq, rfl, rfl⟩

theorem restart_sameListeners (h : SameListeners rt rt') (hconfig : rt'.config = rt.config)
    (user : PanelUser) (profile : Profile) :
    SameListeners (rt.restart user profile) (rt'.restart user profile) := by
  have hremoved := removePort_sameListeners h user.port
  have hconfig' : (rt'.removePort user.port).config = (rt.removePort user.port).config := by
    rw [(rt'.removePort_touches user.port).config_eq, (rt.removePort_touches user.port).config_eq,
      hconfig]
  have hnode := congrArg Config.node hconfig'
  obtain ⟨htcp, htcps⟩ := spawnIf_sameListeners hremoved hconfig'
    (rt.removePort user.port).config.node.tcpEnabled .tcp user profile
  have hconfig'' : ((rt'.removePort user.port).spawnIf
      (rt.removePort user.port).config.node.tcpEnabled .tcp user profile).2.config =
      ((rt.removePort user.port).spawnIf
        (rt.removePort user.port).config.node.tcpEnabled .tcp user profile).2.config := by
    rw [spawnIf_state, spawnIf_state]
    exact hconfig'
  obtain ⟨hudp, hudps⟩ := spawnIf_sameListeners htcps hconfig''
    (rt.removePort user.port).config.node.udpEnabled .udp user profile
  rw [restart, restart, hnode]
  refine ⟨?_, hudps.nextTask_eq, hudps.actions_eq⟩
  dsimp only
  rw [htcp, hudp, hudps.activeUsers_eq]

theorem ensureListener_sameListeners (h : SameListeners rt rt') (hconfig : rt'.config = rt.config)
    (user : PanelUser) :
    SameListeners (rt.ensureListener user) (rt'.ensureListener user) := by
  rw [ensureListener, ensureListener, hconfig]
  cases Profile.fromUser user rt.config.node with
  | error reason => exact h
  | ok profile =>
      dsimp only
      have hprint : rt'.fingerprintAt user.port = rt.fingerprintAt user.port := by
        rw [fingerprintAt, h.activeUsers_eq, fingerprintAt]
      rw [ensureActiveUser_eq, ensureActiveUser_eq, hprint]
      split
      · exact h
      · exact restart_sameListeners h hconfig user profile

theorem ensureListeners_sameListeners (h : SameListeners rt rt') (hconfig : rt'.config = rt.config)
    (rows : List PanelUser) :
    SameListeners (rows.foldl ensureListener rt) (rows.foldl ensureListener rt') := by
  induction rows generalizing rt rt' with
  | nil => exact h
  | cons user rows ih =>
      apply ih (ensureListener_sameListeners h hconfig user)
      rw [(ensureListener_touches rt' user).config_eq, (ensureListener_touches rt user).config_eq,
        hconfig]

theorem removeStalePorts_sameListeners (h : SameListeners rt rt') (live : List UInt16) :
    SameListeners (rt.removeStalePorts live) (rt'.removeStalePorts live) := by
  rw [removeStalePorts, removeStalePorts, h.activeUsers_eq]
  generalize (rt.activeUsers.keys.filter fun port => port ∉ live) = ports
  induction ports generalizing rt rt' with
  | nil => exact h
  | cons port ports ih => exact ih (removePort_sameListeners h port)

theorem removeStaleUsers_sameListeners (h : SameListeners rt rt') (users : List PanelUser) :
    SameListeners (rt.removeStaleUsers users) (rt'.removeStaleUsers users) :=
  ⟨h.activeUsers_eq, h.nextTask_eq, h.actions_eq⟩

theorem applyUsers_sameListeners (h : SameListeners rt rt') (hconfig : rt'.config = rt.config)
    (users : List PanelUser) :
    SameListeners (applyUsers P fromUser users rt) (applyUsers P fromUser users rt') := by
  obtain ⟨hactive, hnext, hactions⟩ := registerUsers_listeners P fromUser users (rt, .empty)
  obtain ⟨hactive', hnext', hactions'⟩ := registerUsers_listeners P fromUser users (rt', .empty)
  have hpublished : SameListeners (publishTables P fromUser users rt)
      (publishTables P fromUser users rt') :=
    ⟨hactive'.trans (h.activeUsers_eq.trans hactive.symm),
      hnext'.trans (h.nextTask_eq.trans hnext.symm),
      hactions'.trans (h.actions_eq.trans hactions.symm)⟩
  have hconfig' : (publishTables P fromUser users rt').config =
      (publishTables P fromUser users rt).config := by
    rw [(publishTables_touches P fromUser users rt').config_eq,
      (publishTables_touches P fromUser users rt).config_eq, hconfig]
  have hrows := ensureListeners_sameListeners hpublished hconfig' (listenerUsers users)
  have hlive : ((listenerUsers users).foldl ensureListener
        (publishTables P fromUser users rt')).config =
      ((listenerUsers users).foldl ensureListener (publishTables P fromUser users rt)).config := by
    rw [(ensureListeners_touches _ (publishTables P fromUser users rt')).config_eq,
      (ensureListeners_touches _ (publishTables P fromUser users rt)).config_eq, hconfig']
  have hports := removeStalePorts_sameListeners hrows (livePorts
    ((listenerUsers users).foldl ensureListener (publishTables P fromUser users rt)).config
    (listenerUsers users))
  rw [applyUsers, applyUsers, hlive]
  exact removeStaleUsers_sameListeners hports users

/-- Polls that are answered alike leave runtimes that serve alike. -/
theorem synced_alike (h : ServesAlike rt rt') (hlisteners : SameListeners rt rt')
    (answer : Except String (List PanelUser)) :
    ServesAlike (synced P fromUser answer rt) (synced P fromUser answer rt') ∧
      SameListeners (synced P fromUser answer rt) (synced P fromUser answer rt') := by
  cases answer with
  | error reason => exact ⟨h, hlisteners⟩
  | ok users =>
      rw [synced, synced, syncUsers_ok, syncUsers_ok, h.config_eq]
      split
      · exact ⟨h, hlisteners⟩
      · exact ⟨applyUsers_alike P fromUser h users,
          applyUsers_sameListeners P fromUser hlisteners h.config_eq users⟩

end BackendRuntime

namespace BackendRuntime

theorem TrafficMoved.alike {rt rt' : BackendRuntime} (h : TrafficMoved rt rt') :
    ServesAlike rt rt' := by
  obtain ⟨_, _, _, _, hsame, rfl⟩ := h
  exact ⟨rfl, rfl, hsame, ⟨rfl, rfl⟩, ⟨rfl, rfl⟩⟩

theorem ServesAlike.trans {rt rt' rt'' : BackendRuntime} (h : ServesAlike rt rt')
    (h' : ServesAlike rt' rt'') : ServesAlike rt rt'' where
  config_eq := h'.config_eq.trans h.config_eq
  tables_eq := h'.tables_eq.trans h.tables_eq
  traffic := h.traffic.trans h'.traffic
  conns := h.conns.trans h'.conns
  speeds := h.speeds.trans h'.speeds

theorem SameListeners.trans {rt rt' rt'' : BackendRuntime} (h : SameListeners rt rt')
    (h' : SameListeners rt' rt'') : SameListeners rt rt'' where
  activeUsers_eq := h'.activeUsers_eq.trans h.activeUsers_eq
  nextTask_eq := h'.nextTask_eq.trans h.nextTask_eq
  actions_eq := h'.actions_eq.trans h.actions_eq

end BackendRuntime

/-! ### The whole loop -/

namespace MainLoop

open BackendRuntime

variable {V : Type} (L : Libraries V)

/-- The answer of an exchange that asks for the users. -/
def usersAnswer? (exchange : Request × HttpReply V) : Option (Except String (List PanelUser)) :=
  if exchange.1.path = "users" then some (PanelClient.readUsers L.serde exchange.1 exchange.2)
  else none

/-- The rules of an exchange that asks for them and can be read. -/
def rulesAnswer? (exchange : Request × HttpReply V) : Option (List DetectRule) :=
  if exchange.1.path = "func/detect_rules" then
    (PanelClient.readDetectRules L.serde exchange.1 exchange.2).toOption
  else none

/-- The runtime after the answers, with nothing in between. -/
def polled (config : Config) (exchanges : List (Request × HttpReply V)) : BackendRuntime :=
  polls L.primitives L.fromUser (.new config) (exchanges.filterMap (usersAnswer? L))

/-- The rules of the last answer that could be read; the probe has asked for nothing. -/
def ruled (exchanges : List (Request × HttpReply V)) : RuleSet :=
  (((exchanges.drop 4).filterMap (rulesAnswer? L)).getLast?.map (compileRules L.compile)).getD []

theorem polled_append (config : Config) (xs ys : List (Request × HttpReply V)) :
    polled L config (xs ++ ys) =
      polls L.primitives L.fromUser (polled L config xs) (ys.filterMap (usersAnswer? L)) := by
  rw [polled, List.filterMap_append]
  exact Machine.run_append ..

/-- The exchanges note every poll, and no other event as a poll. -/
theorem usersAnswer_exchange (s : MainLoop V) (event : LoopEvent V) :
    (s.exchange? event).toList.filterMap (usersAnswer? L) = (s.pollAnswer? L event).toList := by
  cases event with
  | reply reply session alive detect =>
      rw [exchange?]
      cases hanswer : s.pollAnswer? L (.reply reply session alive detect) with
      | none =>
          cases hrequest : s.request? with
          | none => rfl
          | some request =>
              have hpath : request.path ≠ "users" := by
                intro hpath
                obtain ⟨-, hphase | hphase⟩ := phase_of_users hrequest hpath
                · rw [pollAnswer?, hphase] at hanswer
                  cases hanswer
                · rw [pollAnswer?, hphase] at hanswer
                  cases hanswer
              have hother : usersAnswer? L (request, reply) = none := if_neg hpath
              simp [hother]
      | some answer =>
          obtain ⟨_, _, _, _, heq, rfl, hphase⟩ := pollAnswer?_eq_some L hanswer
          cases heq
          have hrequest : s.request? = some (PanelClient.users s.panel) := by
            rw [request?]
            rcases hphase with hphase | hphase <;> rw [hphase]
          rw [hrequest]
          rfl
  | _ => rfl

/-- What holds of the tables and of the listeners. -/
structure Polled (config : Config) (s : MainLoop V) : Prop where
  alike : ServesAlike (polled L config s.exchanges) s.runtime
  listeners : s.phase ≠ .returned (.ok ()) →
    SameListeners (polled L config s.exchanges) s.runtime

theorem step_runs {s : MainLoop V} {event : LoopEvent V}
    (hruns : (step L s event).phase ≠ .returned (.ok ())) : s.phase ≠ .returned (.ok ()) := by
  intro hdone
  rcases step_phase L s event with hsame | hgoes | ⟨-, hselect, -⟩
  · exact hruns (hsame.trans hdone)
  · rw [hdone] at hgoes
    cases hgoes
  · rw [hdone] at hselect
    cases hselect

theorem step_polled {config : Config} {s : MainLoop V} (h : s.Polled L config)
    (event : LoopEvent V) : (step L s event).Polled L config := by
  have hexchanges : polled L config (step L s event).exchanges =
      polls L.primitives L.fromUser (polled L config s.exchanges)
        (s.pollAnswer? L event).toList := by
    rw [(step_noted L s event).2, polled_append, usersAnswer_exchange]
  rcases step_moved L s event with
    ⟨hnone, hmoved⟩ | ⟨answer, hanswer, hsynced⟩ | ⟨rfl, hphase, heq⟩
  · rw [hnone] at hexchanges
    refine ⟨?_, ?_⟩
    · rw [hexchanges]
      exact h.alike.trans hmoved.alike
    · intro hruns
      rw [hexchanges]
      exact (h.listeners (step_runs L hruns)).trans hmoved.sameListeners
  · rw [hanswer] at hexchanges
    have hruns : s.phase ≠ .returned (.ok ()) := by
      obtain ⟨_, _, _, _, -, -, hphase | hphase⟩ := pollAnswer?_eq_some L hanswer
      · rw [hphase]
        rintro ⟨⟩
      · rw [hphase]
        rintro ⟨⟩
    obtain ⟨halike, hlisteners⟩ :=
      synced_alike L.primitives L.fromUser h.alike (h.listeners hruns) answer
    refine ⟨?_, ?_⟩
    · rw [hexchanges]
      exact halike.trans hsynced.alike
    · intro _
      rw [hexchanges]
      exact hlisteners.trans hsynced.sameListeners
  · rw [heq]
    exact ⟨h.alike.trans ⟨rfl, rfl, ⟨rfl, rfl⟩, ⟨rfl, rfl⟩, ⟨rfl, rfl⟩⟩,
      fun hruns => absurd rfl hruns⟩

theorem run_polled (config : Config) (panel : PanelConfig) (events : List (LoopEvent V)) :
    (after L config panel events).Polled L config := by
  have hstart : (start config panel : MainLoop V).Polled L config :=
    ⟨⟨rfl, rfl, ⟨rfl, rfl⟩, ⟨rfl, rfl⟩, ⟨rfl, rfl⟩⟩, fun _ => ⟨rfl, rfl, rfl⟩⟩
  apply Machine.run_keeps _ hstart
  intro s event h
  exact step_polled L h event

/-! ### The rules -/

/-- The rules that an event brings. -/
def rulesRead? (s : MainLoop V) : LoopEvent V → Option (List DetectRule)
  | .reply reply _ _ _ =>
      match s.phase with
      | .firstRules =>
          (PanelClient.readDetectRules L.serde (PanelClient.detectRules s.panel) reply).toOption
      | .pollRules =>
          (PanelClient.readDetectRules L.serde (PanelClient.detectRules s.panel) reply).toOption
      | _ => none
  | _ => none

theorem refreshDetectRules_rules (s : MainLoop V) (reply : HttpReply V) :
    (s.refreshDetectRules L reply).rules =
      ((PanelClient.readDetectRules L.serde (PanelClient.detectRules s.panel) reply).toOption.map
        (compileRules L.compile)).getD s.rules := by
  rw [refreshDetectRules]
  cases PanelClient.readDetectRules L.serde (PanelClient.detectRules s.panel) reply <;> rfl

theorem reportAuxiliaryState_rules (s : MainLoop V) :
    s.reportAuxiliaryState.rules = s.rules := by
  rw [reportAuxiliaryState]
  split <;> rfl

theorem answered_rules (s : MainLoop V) (reply : HttpReply V) (session alive detect : Nat) :
    (s.answered L reply session alive detect).rules =
      ((s.rulesRead? L (.reply reply session alive detect)).map
        (compileRules L.compile)).getD s.rules := by
  rw [answered, rulesRead?]
  cases s.phase with
  | firstRules => exact refreshDetectRules_rules L s reply
  | pollRules => exact refreshDetectRules_rules L s reply
  | traffic deltas =>
      dsimp only
      rw [reportAuxiliaryState_rules]
      cases PanelClient.readAck L.serde (PanelClient.reportTraffic s.panel deltas) reply <;> rfl
  | aliveIps items =>
      dsimp only
      split <;> rfl
  | detectLogs items =>
      dsimp only
      split <;> rfl
  | _ => rfl

theorem step_rules (s : MainLoop V) (event : LoopEvent V) :
    (step L s event).rules =
      ((s.rulesRead? L event).map (compileRules L.compile)).getD s.rules := by
  have hselect : ∀ arm : MainLoop V → MainLoop V, (arm s).rules = s.rules →
      (s.inSelect arm).rules = s.rules := by
    intro arm harm
    rcases inSelect_cases s arm with hsame | ⟨-, heq⟩
    · rw [hsame]
    · rw [heq, harm]
  cases event with
  | reply reply session alive detect => exact answered_rules L (s.exchanged reply) reply ..
  | emit event =>
      rw [step, emit]
      split
      · rfl
      · split <;> rfl
  | record snapshot userId direction bytes =>
      rw [step, record]
      split <;> rfl
  | received session alive detect =>
      apply hselect
      rw [receive]
      split <;> rfl
  | trafficTick =>
      apply hselect
      rw [reportTraffic]
      split
      · exact reportAuxiliaryState_rules s
      · rfl
  | _ => exact hselect _ rfl

/-- How many replies of the probe have come in, while it goes on. -/
def probed : LoopPhase → Option Nat
  | .ping => some 0
  | .nodeInfo => some 1
  | .probeDetectRules => some 2
  | .relayRules => some 3
  | _ => none

theorem Goes.probed_eq {before after : LoopPhase} (h : Goes before after) :
    MainLoop.probed after =
      (MainLoop.probed before).bind fun n => if n = 3 then none else some (n + 1) := by
  cases h <;> rfl

theorem filterMap_detectRules (s : MainLoop V) (reply : HttpReply V) :
    ((some (PanelClient.detectRules s.panel)).map fun request => (request, reply)).toList.filterMap
        (rulesAnswer? L) =
      (PanelClient.readDetectRules L.serde (PanelClient.detectRules s.panel)
        reply).toOption.toList := by
  have hanswer : rulesAnswer? L (PanelClient.detectRules s.panel, reply) =
      (PanelClient.readDetectRules L.serde (PanelClient.detectRules s.panel) reply).toOption :=
    if_pos rfl
  cases hread : PanelClient.readDetectRules L.serde (PanelClient.detectRules s.panel) reply with
  | error reason => simp [hanswer, hread, Except.toOption]
  | ok rules => simp [hanswer, hread, Except.toOption]

/-- Past the probe the exchanges note all rules that are read. -/
theorem rulesAnswer_exchange (s : MainLoop V) (hpast : probed s.phase = none)
    (event : LoopEvent V) :
    (s.exchange? event).toList.filterMap (rulesAnswer? L) = (s.rulesRead? L event).toList := by
  cases event with
  | reply reply session alive detect =>
      rw [exchange?]
      cases hrequest : s.request? with
      | none =>
          rw [request?] at hrequest
          cases hphase : s.phase <;> rw [hphase] at hrequest <;> cases hrequest <;>
            simp [rulesRead?, hphase]
      | some request =>
          by_cases hpath : request.path = "func/detect_rules"
          · obtain ⟨rfl, hphase | hphase | hphase⟩ := phase_of_detectRules hrequest hpath
            · rw [hphase] at hpast
              cases hpast
            · rw [rulesRead?, hphase]
              exact filterMap_detectRules L s reply
            · rw [rulesRead?, hphase]
              exact filterMap_detectRules L s reply
          · have hother : rulesAnswer? L (request, reply) = none := if_neg hpath
            have hread : s.rulesRead? L (.reply reply session alive detect) = none := by
              rw [request?] at hrequest
              rw [rulesRead?]
              split
              · rw [‹s.phase = .firstRules›] at hrequest
                cases hrequest
                exact absurd rfl hpath
              · rw [‹s.phase = .pollRules›] at hrequest
                cases hrequest
                exact absurd rfl hpath
              · rfl
            simp [hother, hread]
  | _ => rfl

/-- What holds of the rules: the replies of the probe are passed over. -/
structure Ruled (s : MainLoop V) : Prop where
  probing : ∀ n, probed s.phase = some n → s.exchanges.length = n
  past : probed s.phase = none → 4 ≤ s.exchanges.length
  rules_eq : s.rules = ruled L s.exchanges

/-- A reply that belongs to the probe changes nothing. -/
theorem ruled_probe {exchanges : List (Request × HttpReply V)} (h : exchanges.length ≤ 4) :
    ruled L exchanges = [] := by
  rw [ruled, List.drop_eq_nil_of_le h]
  rfl

theorem ruled_append {exchanges : List (Request × HttpReply V)} (h : 4 ≤ exchanges.length)
    (new : List (Request × HttpReply V)) :
    ruled L (exchanges ++ new) =
      ((new.filterMap (rulesAnswer? L)).getLast?.map (compileRules L.compile)).getD
        (ruled L exchanges) := by
  rw [ruled, ruled, List.drop_append_of_le_length h, List.filterMap_append, List.getLast?_append]
  cases (new.filterMap (rulesAnswer? L)).getLast? <;> rfl

/-- The probe reads no rules. -/
theorem probed_le {s : MainLoop V} {n : Nat} (h : probed s.phase = some n) :
    n ≤ 3 ∧ s.phase ≠ .select ∧ ∀ event, s.rulesRead? L event = none := by
  have hread : ∀ event, s.rulesRead? L event = none := by
    intro event
    cases event with
    | reply reply session alive detect =>
        rw [rulesRead?]
        cases hphase : s.phase <;> rw [hphase] at h <;> cases h
    | _ => rfl
  cases hphase : s.phase <;> rw [hphase] at h <;> cases h <;> simpa using hread

theorem step_probing {s : MainLoop V} {n : Nat} (h : s.Ruled L) (hprobe : probed s.phase = some n)
    (event : LoopEvent V) : (step L s event).Ruled L := by
  obtain ⟨hn, hclosed, hread⟩ := probed_le L hprobe
  have hlength := h.probing n hprobe
  have hexchanges := (step_noted L s event).2
  have hrules : (step L s event).rules = s.rules := by
    rw [step_rules, hread]
    rfl
  have hnone : s.rules = [] := by
    rw [h.rules_eq]
    exact ruled_probe L (by omega)
  cases hevent : s.exchange? event with
  | none =>
      have hphase := step_waits L hevent hclosed
      rw [hevent, Option.toList_none, List.append_nil] at hexchanges
      refine ⟨?_, ?_, ?_⟩
      · rw [hphase, hexchanges]
        exact h.probing
      · rw [hphase, hexchanges]
        exact h.past
      · rw [hrules, hexchanges]
        exact h.rules_eq
  | some exchange =>
      have hgoes : Goes s.phase (step L s event).phase := by
        cases event with
        | reply reply session alive detect =>
            apply answered_goes L (s.exchanged reply)
            intro hidle
            have hidle : s.request? = none := hidle
            rw [exchange?, hidle] at hevent
            cases hevent
        | _ => cases hevent
      have hcount : (step L s event).exchanges.length = n + 1 := by
        rw [hexchanges, hevent, List.length_append, hlength]
        rfl
      have hnext := hgoes.probed_eq
      rw [hprobe, Option.bind_some] at hnext
      refine ⟨?_, ?_, ?_⟩
      · intro m hm
        rw [hnext] at hm
        split at hm
        · cases hm
        · cases hm
          exact hcount
      · intro hpast
        rw [hnext] at hpast
        split at hpast
        · omega
        · cases hpast
      · rw [hrules, hnone]
        exact (ruled_probe L (by omega)).symm

theorem step_past {s : MainLoop V} (h : s.Ruled L) (hpast : probed s.phase = none)
    (event : LoopEvent V) : (step L s event).Ruled L := by
  have hexchanges := (step_noted L s event).2
  have hphase : probed (step L s event).phase = none := by
    rcases step_phase L s event with hsame | hgoes | ⟨-, -, heq⟩
    · rw [hsame, hpast]
    · rw [hgoes.probed_eq, hpast]
      rfl
    · rw [heq]
      rfl
  refine ⟨?_, ?_, ?_⟩
  · intro n hn
    rw [hphase] at hn
    cases hn
  · intro _
    rw [hexchanges, List.length_append]
    exact Nat.le_add_right_of_le (h.past hpast)
  · rw [step_rules, hexchanges, ruled_append L (h.past hpast), rulesAnswer_exchange L s hpast,
      ← h.rules_eq]
    cases s.rulesRead? L event <;> rfl

theorem run_ruled (config : Config) (panel : PanelConfig) (events : List (LoopEvent V)) :
    (after L config panel events).Ruled L := by
  have hstart : (start config panel : MainLoop V).Ruled L := by
    refine ⟨?_, ?_, rfl⟩
    · rintro n ⟨⟩
      rfl
    · rintro ⟨⟩
  apply Machine.run_keeps _ hstart
  intro s event h
  cases hprobe : probed s.phase with
  | none => exact step_past L h hprobe event
  | some n => exact step_probing L h hprobe event

/-- What the relays look up and match with, and what listens, is at every wait of the task for the
panel and in its `select!` determined by the panel's answers alone: the tables and the listeners
are those of applying the answers for the users one after another to a fresh runtime, and the rules
are those of the last answer after the probe that could be read. No record, event, report or
reading of the clock in between has any influence on them. -/
theorem configuration_in_force (config : Config) (panel : PanelConfig)
    (events : List (LoopEvent V)) :
    let s := after L config panel events
    s.runtime.tables = (polled L config s.exchanges).tables ∧
    (s.phase ≠ .returned (.ok ()) →
      s.runtime.activeUsers = (polled L config s.exchanges).activeUsers ∧
      s.runtime.actions = (polled L config s.exchanges).actions) ∧
    s.rules = ruled L s.exchanges := by
  have hpolled := run_polled L config panel events
  refine ⟨hpolled.alike.tables_eq, ?_, (run_ruled L config panel events).rules_eq⟩
  intro hruns
  have hlisteners := hpolled.listeners hruns
  exact ⟨hlisteners.activeUsers_eq, hlisteners.actions_eq⟩

end MainLoop

end SsrBackend
