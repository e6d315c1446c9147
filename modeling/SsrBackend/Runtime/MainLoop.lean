import Mathlib.Data.List.Induction
import SsrBackend.Foundation.BoundedQueue
import SsrBackend.Runtime.Accounting
import SsrBackend.Runtime.PanelClient

/-!
`BackendRuntime::run`, from wait to wait: for the reply to a request of the probe, of a
poll or of a report, or in its `select!`. Relays emit and record at any of them. The
stops of listeners that `sync_users` and `stop_all` await one after another are part of
one step, so that a state here is one between two such steps. A `tick` or a signal
counts only in the `select!`; an arm that is not taken is no event.
-/

namespace SsrBackend

def eventChannelCapacity : Nat := 1024

/-- What the loop uses of the code around it. -/
structure Libraries (V : Type) where
  primitives : Primitives
  fromUser : PanelUser → UserPolicy
  serde : Serde V
  compile : String → Option (List UInt8 → Bool)

/-- Where `run` waits, or how it has ended. The first four are `initial_panel_probe`. -/
inductive LoopPhase where
  | ping
  | nodeInfo
  | probeDetectRules
  | relayRules
  | firstRules
  | firstUsers
  | select
  | pollUsers
  | pollRules
  | traffic (deltas : List TrafficDelta)
  | aliveIps (items : List AliveIpReport)
  | detectLogs (items : List DetectLogReport)
  | heartbeat (uptime : Nat)
  | returned (result : Except String Unit)
  | panicked

def LoopPhase.ended : LoopPhase → Bool
  | returned _ => true
  | panicked => true
  | _ => false

/-- The deltas that a report waits for the answer to. -/
def LoopPhase.inFlight : LoopPhase → Option (List TrafficDelta)
  | traffic deltas => some deltas
  | _ => none

/-- The runtime and where its task is; the snapshots it has published, the rules of its watch and
the events in its channel; and what has happened so far: the requests with their replies, the
records of the relays and the acknowledged reports. -/
structure MainLoop (V : Type) where
  panel : PanelConfig
  runtime : BackendRuntime
  phase : LoopPhase
  published : List UserTables
  rules : RuleSet
  queue : BoundedQueue RelayEvent eventChannelCapacity
  exchanges : List (Request × HttpReply V)
  records : List Record
  reports : List (List TrafficDelta)

/-- A reply, with the readings of the clock for `expire_local_state`; what a relay does; and the
arms of the `select!`. -/
inductive LoopEvent (V : Type) where
  | reply (reply : HttpReply V) (session alive detect : Nat)
  | emit (event : RelayEvent)
  | record (snapshot userId : Nat) (direction : Direction) (bytes : Nat)
  | received (session : Reading SessionKey Unit) (alive : Reading AliveIpKey Unit)
      (detect : Reading DetectLogKey DetectLogReport)
  | pollTick
  | trafficTick
  | heartbeatTick (uptime : Nat)
  | shutdown

/-- `stop_all`. -/
def BackendRuntime.stopAll (rt : BackendRuntime) : BackendRuntime :=
  { rt with
    activeUsers := ∅
    actions := rt.actions ++ rt.activeUsers.toList.flatMap fun entry => entry.2.stop entry.1 }

namespace MainLoop

variable {V : Type} (L : Libraries V)

def start (config : Config) (panel : PanelConfig) : MainLoop V where
  panel := panel
  runtime := .new config
  phase := .ping
  published := [.empty]
  rules := []
  queue := .empty
  exchanges := []
  records := []
  reports := []

def enter (s : MainLoop V) (phase : LoopPhase) : MainLoop V := { s with phase := phase }

/-- The request that is waited for. -/
def request? (s : MainLoop V) : Option Request :=
  match s.phase with
  | .ping => some (PanelClient.ping s.panel)
  | .nodeInfo => some (PanelClient.nodeInfo s.panel)
  | .probeDetectRules => some (PanelClient.detectRules s.panel)
  | .relayRules => some (PanelClient.relayRules s.panel)
  | .firstRules => some (PanelClient.detectRules s.panel)
  | .firstUsers => some (PanelClient.users s.panel)
  | .select => none
  | .pollUsers => some (PanelClient.users s.panel)
  | .pollRules => some (PanelClient.detectRules s.panel)
  | .traffic deltas => some (PanelClient.reportTraffic s.panel deltas)
  | .aliveIps items => some (PanelClient.reportAliveIps s.panel items)
  | .detectLogs items => some (PanelClient.reportDetectLogs s.panel items)
  | .heartbeat uptime => some (PanelClient.reportNodeInfo s.panel "0.00 0.00 0.00" uptime)
  | .returned _ => none
  | .panicked => none

/-- `sync_users` and the snapshot it leaves. -/
def sync (s : MainLoop V) (answer : Except String (List PanelUser)) : MainLoop V :=
  let rt := BackendRuntime.synced L.primitives L.fromUser answer s.runtime
  { s with runtime := rt, published := s.published ++ [rt.tables] }

/-- `tokio::time::interval` panics on a period of zero. -/
def intervals (panel : PanelConfig) : LoopPhase :=
  if panel.pollIntervalSecs = 0 ∨ panel.trafficReportIntervalSecs = 0 ∨
    panel.heartbeatIntervalSecs = 0 then .panicked else .select

/-- The first `sync_users`, whose error ends `run`. -/
def firstSync (s : MainLoop V) (answer : Except String (List PanelUser)) : MainLoop V :=
  (s.sync L answer).enter <|
    match ((BackendRuntime.syncUsers L.primitives L.fromUser answer).run s.runtime).1 with
    | .ok _ => intervals s.panel
    | .err error => .returned (.error error.message)
    | .panic => .panicked

/-- `refresh_detect_rules`. -/
def refreshDetectRules (s : MainLoop V) (reply : HttpReply V) : MainLoop V :=
  match PanelClient.readDetectRules L.serde (PanelClient.detectRules s.panel) reply with
  | .ok rules => { s with rules := compileRules L.compile rules }
  | .error _ => s

def expireLocalState (s : MainLoop V) (session alive detect : Nat) : MainLoop V :=
  { s with runtime := s.runtime.expireLocalState session alive detect }

/-- The end of `report_traffic`. -/
def concludeTraffic (s : MainLoop V) (deltas : List TrafficDelta) :
    Except String Unit → MainLoop V
  | .error _ => s
  | .ok _ => { s with
      runtime := { s.runtime with traffic := s.runtime.traffic.markReported deltas }
      reports := s.reports ++ [deltas] }

def clearAliveIps (s : MainLoop V) : MainLoop V :=
  { s with runtime := { s.runtime with aliveIps := s.runtime.aliveIps.retain fun _ _ => false } }

def clearDetectLogs (s : MainLoop V) : MainLoop V :=
  { s with runtime := { s.runtime with
      detectLogs := s.runtime.detectLogs.retain fun _ _ => false } }

/-- `report_auxiliary_state` once the alive IPs are reported. -/
def reportDetectLogs (s : MainLoop V) : MainLoop V :=
  let items := s.runtime.detectLogs.values
  s.enter (if items = [] then .select else .detectLogs items)

/-- `report_auxiliary_state` up to its first request. -/
def reportAuxiliaryState (s : MainLoop V) : MainLoop V :=
  let items := s.runtime.aliveIps.keys.map AliveIpKey.report
  if items = [] then s.clearAliveIps.reportDetectLogs else s.enter (.aliveIps items)

/-- `report_traffic` up to its request. -/
def reportTraffic (s : MainLoop V) : MainLoop V :=
  let deltas := s.runtime.traffic.pendingDeltas
  if deltas = [] then s.reportAuxiliaryState else s.enter (.traffic deltas)

/-- What the task does with the reply it has waited for. -/
def answered (s : MainLoop V) (reply : HttpReply V) (session alive detect : Nat) : MainLoop V :=
  match s.phase with
  | .ping => s.enter .nodeInfo
  | .nodeInfo => s.enter .probeDetectRules
  | .probeDetectRules => s.enter .relayRules
  | .relayRules => s.enter .firstRules
  | .firstRules => (s.refreshDetectRules L reply).enter .firstUsers
  | .firstUsers =>
      s.firstSync L (PanelClient.readUsers L.serde (PanelClient.users s.panel) reply)
  | .select => s
  | .pollUsers =>
      (s.sync L (PanelClient.readUsers L.serde (PanelClient.users s.panel) reply)).enter .pollRules
  | .pollRules => ((s.refreshDetectRules L reply).expireLocalState session alive detect).enter .select
  | .traffic deltas =>
      (s.concludeTraffic deltas
        (PanelClient.readAck L.serde (PanelClient.reportTraffic s.panel deltas)
          reply)).reportAuxiliaryState
  | .aliveIps items =>
      match PanelClient.readAck L.serde (PanelClient.reportAliveIps s.panel items) reply with
      | .ok _ => s.clearAliveIps.reportDetectLogs
      | .error _ => s.enter .select
  | .detectLogs items =>
      match PanelClient.readAck L.serde (PanelClient.reportDetectLogs s.panel items) reply with
      | .ok _ => s.clearDetectLogs.enter .select
      | .error _ => s.enter .select
  | .heartbeat _ => s.enter .select
  | .returned _ => s
  | .panicked => s

/-- The exchange is noted where a request is waited for. -/
def exchanged (s : MainLoop V) (reply : HttpReply V) : MainLoop V :=
  { s with exchanges := s.exchanges ++ s.request?.toList.map fun request => (request, reply) }

/-- `try_send` of a relay: a full channel drops the event, and so does one without receiver. -/
def emit (s : MainLoop V) (event : RelayEvent) : MainLoop V :=
  if s.phase.ended then s
  else match s.queue.put [event] with
    | some queue => { s with queue := queue }
    | none => s

/-- A relay records on the counter of a user in a snapshot. -/
def record (s : MainLoop V) (snapshot userId : Nat) (direction : Direction) (bytes : Nat) :
    MainLoop V :=
  match s.published[snapshot]?.bind fun tables => tables.countersByUser[userId]? with
  | none => s
  | some h => { s with
      runtime := { s.runtime with
        traffic := s.runtime.traffic.record h (UserCounters.recordBytes bytes direction) }
      records := s.records ++ [⟨userId, h, direction, bytes⟩] }

/-- The arm of the channel. -/
def receive (s : MainLoop V) (session : Reading SessionKey Unit) (alive : Reading AliveIpKey Unit)
    (detect : Reading DetectLogKey DetectLogReport) : MainLoop V :=
  match s.queue.take 1 with
  | some ([event], queue) => { s with
      runtime := s.runtime.recordEvent event session alive detect
      queue := queue }
  | _ => s

/-- The end of `run`. -/
def shutDown (s : MainLoop V) : MainLoop V :=
  { s with runtime := s.runtime.stopAll, phase := .returned (.ok ()) }

def inSelect (s : MainLoop V) (arm : MainLoop V → MainLoop V) : MainLoop V :=
  match s.phase with
  | .select => arm s
  | _ => s

def step (s : MainLoop V) : LoopEvent V → MainLoop V
  | .reply reply session alive detect =>
      (s.exchanged reply).answered L reply session alive detect
  | .emit event => s.emit event
  | .record snapshot userId direction bytes => s.record snapshot userId direction bytes
  | .received session alive detect => s.inSelect fun s => s.receive session alive detect
  | .pollTick => s.inSelect fun s => s.enter .pollUsers
  | .trafficTick => s.inSelect reportTraffic
  | .heartbeatTick uptime => s.inSelect fun s => s.enter (.heartbeat uptime)
  | .shutdown => s.inSelect shutDown

/-- The loop after some events. -/
def after (config : Config) (panel : PanelConfig) (events : List (LoopEvent V)) : MainLoop V :=
  Machine.run (step L) (start config panel) events

end MainLoop

/-! ### The ledgers and the listeners -/

/-- Only the sessions and the maps of the reports have moved. -/
def BackendRuntime.MapsMoved (rt rt' : BackendRuntime) : Prop :=
  ∃ sessions aliveIps detectLogs,
    rt' = { rt with sessions := sessions, aliveIps := aliveIps, detectLogs := detectLogs }

theorem BackendRuntime.MapsMoved.refl (rt : BackendRuntime) : MapsMoved rt rt :=
  ⟨rt.sessions, rt.aliveIps, rt.detectLogs, rfl⟩

theorem BackendRuntime.MapsMoved.trans {rt rt' rt'' : BackendRuntime} (h : MapsMoved rt rt')
    (h' : MapsMoved rt' rt'') : MapsMoved rt rt'' := by
  obtain ⟨_, _, _, rfl⟩ := h
  obtain ⟨sessions, aliveIps, detectLogs, rfl⟩ := h'
  exact ⟨sessions, aliveIps, detectLogs, rfl⟩

theorem BackendRuntime.recordEvent_moved (rt : BackendRuntime) (event : RelayEvent)
    (session : Reading SessionKey Unit) (alive : Reading AliveIpKey Unit)
    (detect : Reading DetectLogKey DetectLogReport) :
    MapsMoved rt (rt.recordEvent event session alive detect) := by
  cases event with
  | connect userId ip peer => exact ⟨_, _, rt.detectLogs, rfl⟩
  | detect userId listId ip => exact ⟨rt.sessions, rt.aliveIps, _, rfl⟩

/-- The books are the same ones, for a runtime whose maps may have moved. -/
def Accounting.Beside (a b : Accounting) : Prop :=
  ∃ rt, a.runtime.MapsMoved rt ∧ b = { a with runtime := rt }

theorem Accounting.Beside.refl (a : Accounting) : a.Beside a :=
  ⟨a.runtime, .refl a.runtime, rfl⟩

namespace MainLoop

variable {V : Type} (L : Libraries V)

/-- The loop as the books see it. -/
def books (s : MainLoop V) : Accounting :=
  ⟨s.runtime, s.published, s.phase.inFlight, s.records, s.reports⟩

/-- What an event is to the books. -/
def ledgerEvent (s : MainLoop V) : LoopEvent V → Option AccountingEvent
  | .reply reply _ _ _ =>
      match s.phase with
      | .firstUsers =>
          some (.sync (PanelClient.readUsers L.serde (PanelClient.users s.panel) reply))
      | .pollUsers =>
          some (.sync (PanelClient.readUsers L.serde (PanelClient.users s.panel) reply))
      | .traffic deltas => some (.answered
          (PanelClient.readAck L.serde (PanelClient.reportTraffic s.panel deltas) reply))
      | _ => none
  | .record snapshot userId direction bytes => some (.record snapshot userId direction bytes)
  | .trafficTick =>
      match s.phase with
      | .select => some .report
      | _ => none
  | _ => none

/-- The books after an event. -/
def booked (s : MainLoop V) (event : LoopEvent V) : Accounting :=
  match s.ledgerEvent L event with
  | some event => Accounting.step L.primitives L.fromUser s.books event
  | none => s.books

theorem reportDetectLogs_books (s : MainLoop V) :
    s.reportDetectLogs.books = { s.books with inFlight := none } := by
  rw [reportDetectLogs]
  by_cases hnone : s.runtime.detectLogs.values = []
  · simp only [hnone, if_true]
    rfl
  · simp only [hnone, if_false]
    rfl

theorem reportAuxiliaryState_beside (s : MainLoop V) :
    Accounting.Beside { s.books with inFlight := none } s.reportAuxiliaryState.books := by
  rw [reportAuxiliaryState]
  by_cases hnone : s.runtime.aliveIps.keys.map AliveIpKey.report = []
  · simp only [hnone, if_true]
    rw [reportDetectLogs_books]
    exact ⟨_, ⟨s.runtime.sessions, _, s.runtime.detectLogs, rfl⟩, rfl⟩
  · simp only [hnone, if_false]
    exact .refl _

theorem reportTraffic_beside (s : MainLoop V) :
    let deltas := s.runtime.traffic.pendingDeltas
    Accounting.Beside { s.books with inFlight := if deltas = [] then none else some deltas }
      s.reportTraffic.books := by
  rw [reportTraffic]
  by_cases hnone : s.runtime.traffic.pendingDeltas = []
  · simp only [hnone, if_true]
    exact reportAuxiliaryState_beside s
  · simp only [hnone, if_false]
    exact .refl _

/-- Nothing that the books see has changed. -/
structure Quiet (s t : MainLoop V) : Prop where
  runtime : s.runtime.MapsMoved t.runtime
  published_eq : t.published = s.published
  inFlight_eq : t.phase.inFlight = s.phase.inFlight
  records_eq : t.records = s.records
  reports_eq : t.reports = s.reports

variable {L} {s t : MainLoop V}

theorem Quiet.refl (s : MainLoop V) : Quiet s s := ⟨.refl _, rfl, rfl, rfl, rfl⟩

theorem Quiet.beside (h : Quiet s t) : s.books.Beside t.books := by
  refine ⟨t.runtime, h.runtime, ?_⟩
  rw [books, books, h.published_eq, h.inFlight_eq, h.records_eq, h.reports_eq]

/-- The task goes on where no report of traffic is under way. -/
theorem Quiet.enter (h : Quiet s t) (hs : s.phase.inFlight = none) {phase : LoopPhase}
    (hphase : phase.inFlight = none) : Quiet s (t.enter phase) :=
  ⟨h.runtime, h.published_eq, hphase.trans hs.symm, h.records_eq, h.reports_eq⟩

theorem Quiet.reportDetectLogs (h : Quiet s t) (hs : s.phase.inFlight = none) :
    Quiet s t.reportDetectLogs := by
  apply h.enter hs
  split <;> rfl

variable (L)

theorem refreshDetectRules_quiet (h : Quiet s t) (reply : HttpReply V) :
    Quiet s (t.refreshDetectRules L reply) := by
  rw [refreshDetectRules]
  split
  · exact ⟨h.runtime, h.published_eq, h.inFlight_eq, h.records_eq, h.reports_eq⟩
  · exact h

theorem inSelect_quiet (s : MainLoop V) {arm : MainLoop V → MainLoop V}
    (h : s.phase = .select → Quiet s (arm s)) : Quiet s (s.inSelect arm) := by
  rw [inSelect]
  split
  · exact h ‹_›
  · exact .refl s

theorem sync_books (hidle : s.phase.inFlight = none) (answer : Except String (List PanelUser))
    {phase : LoopPhase} (hphase : phase.inFlight = none) :
    ((s.sync L answer).enter phase).books =
      s.books.publish (BackendRuntime.synced L.primitives L.fromUser answer s.runtime) := by
  have hsame : phase.inFlight = s.books.inFlight := hphase.trans hidle.symm
  rw [Accounting.publish, ← hsame]
  rfl

theorem firstSync_books (hidle : s.phase.inFlight = none)
    (answer : Except String (List PanelUser)) :
    (s.firstSync L answer).books =
      s.books.publish (BackendRuntime.synced L.primitives L.fromUser answer s.runtime) := by
  apply sync_books L hidle
  split
  · rw [intervals]
    split <;> rfl
  · rfl
  · rfl

theorem concludeTraffic_books (s : MainLoop V) (deltas : List TrafficDelta)
    (answer : Except String Unit) :
    { (s.concludeTraffic deltas answer).books with inFlight := none } =
      s.books.conclude deltas answer := by
  cases answer with
  | error reason => rfl
  | ok _ => rfl

theorem answered_beside (s : MainLoop V) (reply : HttpReply V) (session alive detect : Nat) :
    (s.booked L (.reply reply session alive detect)).Beside
      (s.answered L reply session alive detect).books := by
  have hquiet := Quiet.refl s
  rw [booked, ledgerEvent, answered]
  cases hphase : s.phase with
  | ping => exact (hquiet.enter (by rw [hphase]; rfl) rfl).beside
  | nodeInfo => exact (hquiet.enter (by rw [hphase]; rfl) rfl).beside
  | probeDetectRules => exact (hquiet.enter (by rw [hphase]; rfl) rfl).beside
  | relayRules => exact (hquiet.enter (by rw [hphase]; rfl) rfl).beside
  | firstRules =>
      exact ((refreshDetectRules_quiet L hquiet reply).enter (by rw [hphase]; rfl) rfl).beside
  | firstUsers =>
      have hidle : s.books.inFlight = none := by rw [books, hphase]; rfl
      simp only [Accounting.step, hidle]
      rw [firstSync_books L hidle]
      exact .refl _
  | select => exact hquiet.beside
  | pollUsers =>
      have hidle : s.books.inFlight = none := by rw [books, hphase]; rfl
      simp only [Accounting.step, hidle]
      rw [sync_books L hidle _ rfl]
      exact .refl _
  | pollRules =>
      have hrules := refreshDetectRules_quiet L hquiet reply
      have hexpired : Quiet s ((s.refreshDetectRules L reply).expireLocalState session alive detect) :=
        ⟨hrules.runtime.trans ⟨_, _, _, rfl⟩, hrules.published_eq, hrules.inFlight_eq,
          hrules.records_eq, hrules.reports_eq⟩
      exact (hexpired.enter (by rw [hphase]; rfl) rfl).beside
  | traffic deltas =>
      have hflight : s.books.inFlight = some deltas := by rw [books, hphase]; rfl
      simp only [Accounting.step, hflight]
      rw [← concludeTraffic_books]
      exact reportAuxiliaryState_beside _
  | aliveIps items =>
      have hidle : s.phase.inFlight = none := by rw [hphase]; rfl
      dsimp only
      split
      · have hcleared : Quiet s s.clearAliveIps := ⟨⟨_, _, _, rfl⟩, rfl, rfl, rfl, rfl⟩
        exact (hcleared.reportDetectLogs hidle).beside
      · exact (hquiet.enter hidle rfl).beside
  | detectLogs items =>
      have hidle : s.phase.inFlight = none := by rw [hphase]; rfl
      dsimp only
      split
      · have hcleared : Quiet s s.clearDetectLogs := ⟨⟨_, _, _, rfl⟩, rfl, rfl, rfl, rfl⟩
        exact (hcleared.enter hidle rfl).beside
      · exact (hquiet.enter hidle rfl).beside
  | heartbeat uptime => exact (hquiet.enter (by rw [hphase]; rfl) rfl).beside
  | returned result => exact hquiet.beside
  | panicked => exact hquiet.beside

/-- A step does to the books what it is to them, and moves the maps at most; the end of the loop
stops the listeners. -/
theorem step_books (s : MainLoop V) {event : LoopEvent V} (hgoes : event ≠ .shutdown) :
    (s.booked L event).Beside (step L s event).books := by
  cases event with
  | reply reply session alive detect => exact answered_beside L (s.exchanged reply) reply ..
  | emit event =>
      have hemit : Quiet s (s.emit event) := by
        rw [emit]
        split
        · exact .refl s
        · split
          · exact ⟨.refl _, rfl, rfl, rfl, rfl⟩
          · exact .refl s
      exact hemit.beside
  | record snapshot userId direction bytes =>
      have hhandle : s.books.handle? snapshot userId =
          s.published[snapshot]?.bind fun tables => tables.countersByUser[userId]? := rfl
      rw [step, booked, ledgerEvent, record]
      dsimp only [Accounting.step]
      rw [hhandle]
      cases s.published[snapshot]?.bind fun tables => tables.countersByUser[userId]? with
      | none => exact .refl _
      | some h => exact .refl _
  | received session alive detect =>
      apply Quiet.beside
      apply inSelect_quiet
      intro _
      rw [receive]
      split
      · exact ⟨BackendRuntime.recordEvent_moved .., rfl, rfl, rfl, rfl⟩
      · exact .refl s
  | pollTick =>
      apply Quiet.beside
      apply inSelect_quiet
      intro hselect
      exact (Quiet.refl s).enter (by rw [hselect]; rfl) rfl
  | trafficTick =>
      rw [step, booked, ledgerEvent, inSelect]
      cases hphase : s.phase with
      | select =>
          have hidle : s.books.inFlight = none := by rw [books, hphase]; rfl
          simp only [Accounting.step, hidle]
          exact reportTraffic_beside s
      | _ => exact .refl _
  | heartbeatTick uptime =>
      apply Quiet.beside
      apply inSelect_quiet
      intro hselect
      exact (Quiet.refl s).enter (by rw [hselect]; rfl) rfl
  | shutdown => exact absurd rfl hgoes

theorem inSelect_cases (s : MainLoop V) (arm : MainLoop V → MainLoop V) :
    s.inSelect arm = s ∨ (s.phase = .select ∧ s.inSelect arm = arm s) := by
  rw [inSelect]
  split
  · exact Or.inr ⟨‹_›, rfl⟩
  · exact Or.inl rfl

theorem shutDown_books (hphase : s.phase = .select) :
    s.shutDown.books = { s.books with runtime := s.runtime.stopAll } := by
  rw [books, books, hphase]
  rfl

/-- The ledgers and the tables of the books are those of the loop, also at its end. -/
theorem step_ledgers (s : MainLoop V) (event : LoopEvent V) :
    ∃ rt : BackendRuntime, rt.config = (s.booked L event).runtime.config ∧
      rt.traffic = (s.booked L event).runtime.traffic ∧
      rt.tables = (s.booked L event).runtime.tables ∧
      (step L s event).books = { s.booked L event with runtime := rt } := by
  by_cases hends : event = .shutdown
  · subst hends
    rcases inSelect_cases s shutDown with hsame | ⟨hphase, heq⟩
    · rw [step, hsame]
      exact ⟨s.runtime, rfl, rfl, rfl, rfl⟩
    · rw [step, heq, shutDown_books hphase]
      exact ⟨s.runtime.stopAll, rfl, rfl, rfl, rfl⟩
  · obtain ⟨rt, ⟨_, _, _, hmoved⟩, heq⟩ := step_books L s hends
    refine ⟨rt, ?_, ?_, ?_, heq⟩
    · rw [hmoved]
    · rw [hmoved]
    · rw [hmoved]

theorem step_config (s : MainLoop V) (event : LoopEvent V) :
    (step L s event).runtime.config = s.runtime.config := by
  obtain ⟨rt, hrt, -, -, heq⟩ := step_ledgers L s event
  have hconfig : (step L s event).runtime.config = rt.config :=
    congrArg (fun books => books.runtime.config) heq
  rw [hconfig, hrt, booked]
  cases s.ledgerEvent L event with
  | none => rfl
  | some event => exact Accounting.step_config L.primitives L.fromUser s.books event

/-! ### What only a reply, a relay or the channel changes -/

/-- The work on a reply leaves the channel alone, and notes nothing by itself. -/
structure Apart (s t : MainLoop V) : Prop where
  panel_eq : t.panel = s.panel
  queue_eq : t.queue = s.queue
  exchanges_eq : t.exchanges = s.exchanges

theorem refreshDetectRules_apart (s : MainLoop V) (reply : HttpReply V) :
    Apart s (s.refreshDetectRules L reply) := by
  rw [refreshDetectRules]
  split <;> exact ⟨rfl, rfl, rfl⟩

theorem reportAuxiliaryState_apart (s : MainLoop V) : Apart s s.reportAuxiliaryState := by
  rw [reportAuxiliaryState]
  split <;> exact ⟨rfl, rfl, rfl⟩

theorem reportTraffic_apart (s : MainLoop V) : Apart s s.reportTraffic := by
  rw [reportTraffic]
  split
  · exact reportAuxiliaryState_apart s
  · exact ⟨rfl, rfl, rfl⟩

theorem answered_apart (s : MainLoop V) (reply : HttpReply V) (session alive detect : Nat) :
    Apart s (s.answered L reply session alive detect) := by
  rw [answered]
  cases s.phase with
  | firstRules =>
      have h := refreshDetectRules_apart L s reply
      exact ⟨h.panel_eq, h.queue_eq, h.exchanges_eq⟩
  | pollRules =>
      have h := refreshDetectRules_apart L s reply
      exact ⟨h.panel_eq, h.queue_eq, h.exchanges_eq⟩
  | traffic deltas =>
      dsimp only
      cases PanelClient.readAck L.serde (PanelClient.reportTraffic s.panel deltas) reply with
      | error reason => exact reportAuxiliaryState_apart s
      | ok _ =>
          have h := reportAuxiliaryState_apart (s.concludeTraffic deltas (.ok ()))
          exact ⟨h.panel_eq, h.queue_eq, h.exchanges_eq⟩
  | aliveIps items =>
      dsimp only
      split <;> exact ⟨rfl, rfl, rfl⟩
  | detectLogs items =>
      dsimp only
      split <;> exact ⟨rfl, rfl, rfl⟩
  | _ => exact ⟨rfl, rfl, rfl⟩

/-- The exchange of an event. -/
def exchange? (s : MainLoop V) : LoopEvent V → Option (Request × HttpReply V)
  | .reply reply _ _ _ => s.request?.map fun request => (request, reply)
  | _ => none

theorem step_noted (s : MainLoop V) (event : LoopEvent V) :
    (step L s event).panel = s.panel ∧
      (step L s event).exchanges = s.exchanges ++ (s.exchange? event).toList := by
  have hnone : s.exchanges = s.exchanges ++ [] := (List.append_nil _).symm
  have hselect : ∀ arm : MainLoop V → MainLoop V,
      (arm s).panel = s.panel → (arm s).exchanges = s.exchanges →
      (s.inSelect arm).panel = s.panel ∧ (s.inSelect arm).exchanges = s.exchanges ++ [] := by
    intro arm hpanel hexchanges
    rcases inSelect_cases s arm with hsame | ⟨-, heq⟩
    · rw [hsame]
      exact ⟨rfl, hnone⟩
    · rw [heq]
      exact ⟨hpanel, hexchanges.trans hnone⟩
  cases event with
  | reply reply session alive detect =>
      have h := answered_apart L (s.exchanged reply) reply session alive detect
      refine ⟨h.panel_eq, h.exchanges_eq.trans ?_⟩
      rw [exchanged, exchange?]
      cases s.request? <;> rfl
  | emit event =>
      rw [step, emit]
      split
      · exact ⟨rfl, hnone⟩
      · split <;> exact ⟨rfl, hnone⟩
  | record snapshot userId direction bytes =>
      rw [step, record]
      split <;> exact ⟨rfl, hnone⟩
  | received session alive detect =>
      apply hselect
      · rw [receive]
        split <;> rfl
      · rw [receive]
        split <;> rfl
  | pollTick => exact hselect _ rfl rfl
  | trafficTick =>
      have h := reportTraffic_apart s
      exact hselect _ h.panel_eq h.exchanges_eq
  | heartbeatTick uptime => exact hselect _ rfl rfl
  | shutdown => exact hselect _ rfl rfl

theorem run_exchanges (s : MainLoop V) (events : List (LoopEvent V)) :
    s.exchanges <+: (Machine.run (step L) s events).exchanges := by
  induction events generalizing s with
  | nil => exact List.prefix_rfl
  | cons event events ih =>
      have hstep : s.exchanges <+: (step L s event).exchanges := by
        rw [(step_noted L s event).2]
        exact List.prefix_append ..
      exact hstep.trans (ih (step L s event))

/-- A noted reply has come in while its request was waited for. -/
theorem mem_exchanges {config : Config} {panel : PanelConfig} {events : List (LoopEvent V)}
    {exchange : Request × HttpReply V} (h : exchange ∈ (after L config panel events).exchanges) :
    ∃ before session alive detect later,
      events = before ++ .reply exchange.2 session alive detect :: later ∧
      (after L config panel before).request? = some exchange.1 := by
  induction events using List.reverseRecOn with
  | nil => cases h
  | append_singleton events event ih =>
      rw [after, Machine.run_append, Machine.run_cons, Machine.run_nil,
        (step_noted L _ event).2] at h
      cases List.mem_append.mp h with
      | inl hold =>
          obtain ⟨before, session, alive, detect, later, rfl, hrequest⟩ := ih hold
          exact ⟨before, session, alive, detect, later ++ [event], List.append_assoc .., hrequest⟩
      | inr hnew =>
          rw [Option.mem_toList] at hnew
          cases event with
          | reply reply session alive detect =>
              obtain ⟨request, hrequest, rfl⟩ := Option.map_eq_some_iff.mp hnew
              exact ⟨events, session, alive, detect, [], rfl, hrequest⟩
          | _ => cases hnew

/-! ### Which phase a request belongs to -/

section Requests

variable {s : MainLoop V} {request : Request}

theorem phase_of_users (h : s.request? = some request) (hpath : request.path = "users") :
    request = PanelClient.users s.panel ∧ (s.phase = .firstUsers ∨ s.phase = .pollUsers) := by
  have hinfo := PanelClient.infoPath_ne s.panel (by decide : "users".toList.head? ≠ some 'n')
  rw [request?] at h
  cases hphase : s.phase <;> rw [hphase] at h <;> cases h <;> simp [hinfo] at hpath ⊢

theorem phase_of_detectRules (h : s.request? = some request)
    (hpath : request.path = "func/detect_rules") :
    request = PanelClient.detectRules s.panel ∧
      (s.phase = .probeDetectRules ∨ s.phase = .firstRules ∨ s.phase = .pollRules) := by
  have hinfo := PanelClient.infoPath_ne s.panel
    (by decide : "func/detect_rules".toList.head? ≠ some 'n')
  rw [request?] at h
  cases hphase : s.phase <;> rw [hphase] at h <;> cases h <;> simp [hinfo] at hpath ⊢

theorem phase_of_traffic (h : s.request? = some request)
    (hpath : request.path = "users/traffic") :
    ∃ deltas, request = PanelClient.reportTraffic s.panel deltas ∧ s.phase = .traffic deltas := by
  have hinfo := PanelClient.infoPath_ne s.panel
    (by decide : "users/traffic".toList.head? ≠ some 'n')
  rw [request?] at h
  cases hphase : s.phase <;> rw [hphase] at h <;> cases h <;> simp [hinfo] at hpath ⊢

theorem phase_of_aliveIps (h : s.request? = some request)
    (hpath : request.path = "users/aliveip") :
    ∃ items, request = PanelClient.reportAliveIps s.panel items ∧ s.phase = .aliveIps items := by
  have hinfo := PanelClient.infoPath_ne s.panel
    (by decide : "users/aliveip".toList.head? ≠ some 'n')
  rw [request?] at h
  cases hphase : s.phase <;> rw [hphase] at h <;> cases h <;> simp [hinfo] at hpath ⊢

theorem phase_of_detectLogs (h : s.request? = some request)
    (hpath : request.path = "users/detectlog") :
    ∃ items, request = PanelClient.reportDetectLogs s.panel items ∧
      s.phase = .detectLogs items := by
  have hinfo := PanelClient.infoPath_ne s.panel
    (by decide : "users/detectlog".toList.head? ≠ some 'n')
  rw [request?] at h
  cases hphase : s.phase <;> rw [hphase] at h <;> cases h <;> simp [hinfo] at hpath ⊢

end Requests

/-! ### Where the task goes -/

/-- The edges of the task's control flow, but for the signal. The probe is left one request at a
time, each round of the `select!` comes back to it, and only the first poll can end the task. -/
inductive Goes : LoopPhase → LoopPhase → Prop
  | pinged : Goes .ping .nodeInfo
  | informed : Goes .nodeInfo .probeDetectRules
  | probed : Goes .probeDetectRules .relayRules
  | relayed : Goes .relayRules .firstRules
  | ruled : Goes .firstRules .firstUsers
  | opened : Goes .firstUsers .select
  | failed (reason : String) : Goes .firstUsers (.returned (.error reason))
  | stuck : Goes .firstUsers .panicked
  | polls : Goes .select .pollUsers
  | listed : Goes .pollUsers .pollRules
  | polled : Goes .pollRules .select
  | reports (deltas : List TrafficDelta) : Goes .select (.traffic deltas)
  | lists (items : List AliveIpReport) : Goes .select (.aliveIps items)
  | logs (items : List DetectLogReport) : Goes .select (.detectLogs items)
  | reported (deltas : List TrafficDelta) : Goes (.traffic deltas) .select
  | reportedLists (deltas : List TrafficDelta) (items : List AliveIpReport) :
      Goes (.traffic deltas) (.aliveIps items)
  | reportedLogs (deltas : List TrafficDelta) (items : List DetectLogReport) :
      Goes (.traffic deltas) (.detectLogs items)
  | alive (items : List AliveIpReport) : Goes (.aliveIps items) .select
  | aliveLogs (items : List AliveIpReport) (logs : List DetectLogReport) :
      Goes (.aliveIps items) (.detectLogs logs)
  | logged (items : List DetectLogReport) : Goes (.detectLogs items) .select
  | beats (uptime : Nat) : Goes .select (.heartbeat uptime)
  | beaten (uptime : Nat) : Goes (.heartbeat uptime) .select

theorem Goes.not_returned {before : LoopPhase} : ¬Goes before (.returned (.ok ())) := by
  intro h
  cases h

theorem reportDetectLogs_phase (s : MainLoop V) :
    s.reportDetectLogs.phase = .select ∨ ∃ items, s.reportDetectLogs.phase = .detectLogs items := by
  rw [reportDetectLogs]
  dsimp only [enter]
  split
  · exact Or.inl rfl
  · exact Or.inr ⟨_, rfl⟩

theorem reportAuxiliaryState_phase (s : MainLoop V) :
    s.reportAuxiliaryState.phase = .select ∨
      (∃ items, s.reportAuxiliaryState.phase = .aliveIps items) ∨
      ∃ items, s.reportAuxiliaryState.phase = .detectLogs items := by
  rw [reportAuxiliaryState]
  split
  · rcases reportDetectLogs_phase s.clearAliveIps with hselect | hlogs
    · exact Or.inl hselect
    · exact Or.inr (Or.inr hlogs)
  · exact Or.inr (Or.inl ⟨_, rfl⟩)

/-- The task moves with every reply it waits for. -/
theorem answered_goes (s : MainLoop V) (reply : HttpReply V) (session alive detect : Nat)
    (hwaits : s.request? ≠ none) :
    Goes s.phase (s.answered L reply session alive detect).phase := by
  rw [request?] at hwaits
  rw [answered]
  cases hphase : s.phase with
  | ping => exact .pinged
  | nodeInfo => exact .informed
  | probeDetectRules => exact .probed
  | relayRules => exact .relayed
  | firstRules => exact .ruled
  | firstUsers =>
      dsimp only [firstSync, enter]
      split
      · rw [intervals]
        split
        · exact .stuck
        · exact .opened
      · exact .failed _
      · exact .stuck
  | select => exact absurd (by rw [hphase]) hwaits
  | pollUsers => exact .listed
  | pollRules => exact .polled
  | traffic deltas =>
      dsimp only
      rcases reportAuxiliaryState_phase (s.concludeTraffic deltas (PanelClient.readAck L.serde
          (PanelClient.reportTraffic s.panel deltas) reply)) with
        hselect | ⟨items, halive⟩ | ⟨items, hlogs⟩
      · rw [hselect]
        exact .reported deltas
      · rw [halive]
        exact .reportedLists deltas items
      · rw [hlogs]
        exact .reportedLogs deltas items
  | aliveIps items =>
      dsimp only
      split
      · rcases reportDetectLogs_phase s.clearAliveIps with hselect | ⟨logs, hlogs⟩
        · rw [hselect]
          exact .alive items
        · rw [hlogs]
          exact .aliveLogs items logs
      · exact .alive items
  | detectLogs items =>
      dsimp only
      split <;> exact .logged items
  | heartbeat uptime => exact .beaten uptime
  | returned result => exact absurd (by rw [hphase]) hwaits
  | panicked => exact absurd (by rw [hphase]) hwaits

theorem answered_idle {s : MainLoop V} (hidle : s.request? = none) (reply : HttpReply V)
    (session alive detect : Nat) : s.answered L reply session alive detect = s := by
  rw [request?] at hidle
  rw [answered]
  split <;> rename_i hphase <;> simp only [hphase, reduceCtorEq] at hidle <;> rfl

theorem reportTraffic_phase (s : MainLoop V) (hphase : s.phase = .select) :
    s.reportTraffic.phase = s.phase ∨ Goes s.phase s.reportTraffic.phase := by
  rw [reportTraffic, hphase]
  split
  · rcases reportAuxiliaryState_phase s with hselect | ⟨items, halive⟩ | ⟨items, hlogs⟩
    · exact Or.inl hselect
    · rw [halive]
      exact Or.inr (.lists items)
    · rw [hlogs]
      exact Or.inr (.logs items)
  · exact Or.inr (.reports _)

/-- The task stays, goes on, or ends by the arm of the signal. -/
theorem step_phase (s : MainLoop V) (event : LoopEvent V) :
    (step L s event).phase = s.phase ∨ Goes s.phase (step L s event).phase ∨
      (event = .shutdown ∧ s.phase = .select ∧ step L s event = s.shutDown) := by
  have hselect : ∀ arm : MainLoop V → MainLoop V,
      (s.phase = .select → (arm s).phase = s.phase ∨ Goes s.phase (arm s).phase) →
      (s.inSelect arm).phase = s.phase ∨ Goes s.phase (s.inSelect arm).phase ∨
        (event = .shutdown ∧ s.phase = .select ∧ s.inSelect arm = s.shutDown) := by
    intro arm harm
    rcases inSelect_cases s arm with hsame | ⟨hphase, heq⟩
    · rw [hsame]
      exact Or.inl rfl
    · rw [heq]
      exact (harm hphase).imp_right Or.inl
  cases event with
  | reply reply session alive detect =>
      by_cases hwaits : (s.exchanged reply).request? = none
      · rw [step, answered_idle L hwaits]
        exact Or.inl rfl
      · exact Or.inr (Or.inl
          (answered_goes L (s.exchanged reply) reply session alive detect hwaits))
  | emit event =>
      rw [step, emit]
      split
      · exact Or.inl rfl
      · split <;> exact Or.inl rfl
  | record snapshot userId direction bytes =>
      rw [step, record]
      split <;> exact Or.inl rfl
  | received session alive detect =>
      apply hselect
      intro _
      rw [receive]
      split <;> exact Or.inl rfl
  | pollTick => exact hselect _ fun hphase => Or.inr (hphase ▸ .polls)
  | trafficTick => exact hselect _ (reportTraffic_phase s)
  | heartbeatTick uptime => exact hselect _ fun hphase => Or.inr (hphase ▸ .beats uptime)
  | shutdown =>
      rcases inSelect_cases s shutDown with hsame | ⟨hphase, heq⟩
      · rw [step, hsame]
        exact Or.inl rfl
      · exact Or.inr (Or.inr ⟨rfl, hphase, heq⟩)

/-- Outside of the `select!` the task moves with a reply only. -/
theorem step_waits {s : MainLoop V} {event : LoopEvent V} (hnone : s.exchange? event = none)
    (hphase : s.phase ≠ .select) : (step L s event).phase = s.phase := by
  have hselect : ∀ arm : MainLoop V → MainLoop V, (s.inSelect arm).phase = s.phase := by
    intro arm
    rcases inSelect_cases s arm with hsame | ⟨hopen, -⟩
    · rw [hsame]
    · exact absurd hopen hphase
  cases event with
  | reply reply session alive detect =>
      have hidle : (s.exchanged reply).request? = none := Option.map_eq_none_iff.mp hnone
      rw [step, answered_idle L hidle]
      rfl
  | emit event =>
      rw [step, emit]
      split
      · rfl
      · split <;> rfl
  | record snapshot userId direction bytes =>
      rw [step, record]
      split <;> rfl
  | _ => exact hselect _

/-- The first poll ends the task where `sync_users` fails, which leaves the runtime as it is. -/
theorem firstSync_failed {s : MainLoop V} {answer : Except String (List PanelUser)}
    {reason : String} (h : (s.firstSync L answer).phase = .returned (.error reason)) :
    (s.firstSync L answer).runtime = s.runtime ∧ ∃ error,
      ((BackendRuntime.syncUsers L.primitives L.fromUser answer).run s.runtime).1 = .err error ∧
        reason = error.message := by
  dsimp only [firstSync, enter] at h
  split at h
  · rw [intervals] at h
    split at h <;> cases h
  · rename_i error herror
    cases h
    have hrejects : BackendRuntime.Rejects answer s.runtime := by
      rw [← BackendRuntime.rejects_iff L.primitives L.fromUser, herror]
      rintro ⟨⟩
    exact ⟨(BackendRuntime.synced_rejects L.primitives L.fromUser hrejects).1, error, herror, rfl⟩
  · cases h

end MainLoop

/-! ### Which steps are polls -/

/-- Only the values of the counters, their checkpoints and the maps have moved. -/
def BackendRuntime.TrafficMoved (rt rt' : BackendRuntime) : Prop :=
  ∃ traffic sessions aliveIps detectLogs, rt.traffic.counters.SameHandles traffic.counters ∧
    rt' = { rt with
      traffic := traffic, sessions := sessions, aliveIps := aliveIps, detectLogs := detectLogs }

theorem BackendRuntime.TrafficMoved.refl (rt : BackendRuntime) : TrafficMoved rt rt :=
  ⟨rt.traffic, rt.sessions, rt.aliveIps, rt.detectLogs, ⟨rfl, rfl⟩, rfl⟩

theorem BackendRuntime.TrafficMoved.of_traffic {rt : BackendRuntime} {traffic : TrafficLedger}
    (h : rt.traffic.counters.SameHandles traffic.counters) :
    TrafficMoved rt { rt with traffic := traffic } :=
  ⟨traffic, rt.sessions, rt.aliveIps, rt.detectLogs, h, rfl⟩

theorem BackendRuntime.TrafficMoved.maps {rt rt' rt'' : BackendRuntime} (h : TrafficMoved rt rt')
    (hmaps : MapsMoved rt' rt'') : TrafficMoved rt rt'' := by
  obtain ⟨traffic, _, _, _, hsame, rfl⟩ := h
  obtain ⟨sessions, aliveIps, detectLogs, rfl⟩ := hmaps
  exact ⟨traffic, sessions, aliveIps, detectLogs, hsame, rfl⟩

/-- Only a poll moves the listeners and the tables of the books. -/
theorem Accounting.step_moved (P : Primitives) (fromUser : PanelUser → UserPolicy)
    (a : Accounting) {event : AccountingEvent} (hevent : ∀ answer, event ≠ .sync answer) :
    a.runtime.TrafficMoved (Accounting.step P fromUser a event).runtime := by
  cases event with
  | record snapshot userId direction bytes =>
      rw [Accounting.step]
      cases a.handle? snapshot userId with
      | none => exact .refl _
      | some handle => exact .of_traffic ⟨rfl, Arena.size_modify ..⟩
  | sync answer => exact absurd rfl (hevent answer)
  | report =>
      rw [Accounting.step]
      cases a.inFlight <;> exact .refl _
  | answered answer =>
      rw [Accounting.step]
      cases a.inFlight with
      | none => exact .refl _
      | some deltas =>
          cases answer with
          | error reason => exact .refl _
          | ok _ =>
              have hcounters := TrafficLedger.markReported_counters a.ledger deltas
              refine .of_traffic ⟨?_, ?_⟩
              · rw [hcounters]
                rfl
              · rw [hcounters]
                rfl

namespace MainLoop

variable {V : Type} (L : Libraries V)

/-- The answer of an event that is a poll. -/
def pollAnswer? (s : MainLoop V) : LoopEvent V → Option (Except String (List PanelUser))
  | .reply reply _ _ _ =>
      match s.phase with
      | .firstUsers => some (PanelClient.readUsers L.serde (PanelClient.users s.panel) reply)
      | .pollUsers => some (PanelClient.readUsers L.serde (PanelClient.users s.panel) reply)
      | _ => none
  | _ => none

theorem pollAnswer?_eq_some {s : MainLoop V} {event : LoopEvent V}
    {answer : Except String (List PanelUser)} (h : s.pollAnswer? L event = some answer) :
    ∃ reply session alive detect, event = .reply reply session alive detect ∧
      answer = PanelClient.readUsers L.serde (PanelClient.users s.panel) reply ∧
      (s.phase = .firstUsers ∨ s.phase = .pollUsers) := by
  cases event with
  | reply reply session alive detect =>
      rw [pollAnswer?] at h
      split at h
      · cases h
        exact ⟨reply, session, alive, detect, rfl, rfl, Or.inl ‹_›⟩
      · cases h
        exact ⟨reply, session, alive, detect, rfl, rfl, Or.inr ‹_›⟩
      · cases h
  | _ => cases h

/-- The polls are the polls of the books. -/
theorem ledgerEvent_sync (s : MainLoop V) (event : LoopEvent V)
    (answer : Except String (List PanelUser)) :
    s.ledgerEvent L event = some (.sync answer) ↔ s.pollAnswer? L event = some answer := by
  cases event with
  | reply reply session alive detect =>
      rw [ledgerEvent, pollAnswer?]
      cases s.phase <;> simp
  | trafficTick =>
      simp only [ledgerEvent, pollAnswer?]
      cases s.phase <;> simp
  | _ => simp [ledgerEvent, pollAnswer?]

theorem booked_moved (s : MainLoop V) {event : LoopEvent V} (hnone : s.pollAnswer? L event = none) :
    s.runtime.TrafficMoved (s.booked L event).runtime := by
  rw [booked]
  cases hevent : s.ledgerEvent L event with
  | none => exact .refl _
  | some ledger =>
      apply Accounting.step_moved L.primitives L.fromUser s.books
      intro answer heq
      rw [heq, ledgerEvent_sync, hnone] at hevent
      cases hevent

theorem booked_polled {s : MainLoop V} {event : LoopEvent V}
    {answer : Except String (List PanelUser)} (hanswer : s.pollAnswer? L event = some answer) :
    (s.booked L event).runtime = BackendRuntime.synced L.primitives L.fromUser answer s.runtime := by
  have hidle : s.books.inFlight = none := by
    obtain ⟨_, _, _, _, -, -, hphase⟩ := pollAnswer?_eq_some L hanswer
    rcases hphase with hphase | hphase <;> rw [books, hphase] <;> rfl
  rw [booked, (ledgerEvent_sync L s event answer).mpr hanswer]
  dsimp only [Accounting.step]
  rw [hidle]
  rfl

/-- What a step does to the runtime: it moves counters and maps, is a poll, or stops all. -/
theorem step_moved (s : MainLoop V) (event : LoopEvent V) :
    (s.pollAnswer? L event = none ∧ s.runtime.TrafficMoved (step L s event).runtime) ∨
    (∃ answer, s.pollAnswer? L event = some answer ∧
      (BackendRuntime.synced L.primitives L.fromUser answer s.runtime).TrafficMoved
        (step L s event).runtime) ∨
    (event = .shutdown ∧ s.phase = .select ∧ step L s event = s.shutDown) := by
  by_cases hends : event = .shutdown
  · subst hends
    rcases inSelect_cases s shutDown with hsame | ⟨hphase, heq⟩
    · rw [step, hsame]
      exact Or.inl ⟨rfl, .refl _⟩
    · exact Or.inr (Or.inr ⟨rfl, hphase, heq⟩)
  · obtain ⟨rt, hmoved, heq⟩ := step_books L s hends
    have hrt : (step L s event).runtime = rt := congrArg Accounting.runtime heq
    rw [hrt]
    cases hanswer : s.pollAnswer? L event with
    | none => exact Or.inl ⟨rfl, (booked_moved L s hanswer).maps hmoved⟩
    | some answer =>
        rw [booked_polled L hanswer] at hmoved
        exact Or.inr (Or.inl ⟨answer, rfl, (BackendRuntime.TrafficMoved.refl _).maps hmoved⟩)

end MainLoop

end SsrBackend
