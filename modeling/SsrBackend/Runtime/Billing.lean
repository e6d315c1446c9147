import SsrBackend.Runtime.MainLoop

/-!
What the panel is told of the users' traffic over a whole run of the supervisor's
loop. The reports are read off the requests and their replies: a report counts once
the client has taken its reply for an acknowledgement. A report of which only the
reply fails is made again with the bytes of the next one.
-/

namespace SsrBackend

theorem Accounting.Sound.of_ledgers {a : Accounting} {owner : Nat → Nat}
    {lost : Nat → Direction → Nat} (hs : a.Sound owner lost) {rt : BackendRuntime}
    (htraffic : rt.traffic = a.runtime.traffic) (htables : rt.tables = a.runtime.tables) :
    ({ a with runtime := rt } : Accounting).Sound owner lost := by
  have hledger : ({ a with runtime := rt } : Accounting).ledger = a.ledger := htraffic
  have hcounter : ∀ u, ({ a with runtime := rt } : Accounting).counter? u = a.counter? u := by
    intro u
    rw [counter?, hledger, counter?]
  refine ⟨?_, ?_, ?_, ?_, ?_, ?_, ?_, ?_, hs.distinct, ?_⟩
  · rw [hledger]
    exact hs.owned
  · rw [hledger]
    exact hs.aligned
  · change rt.tables ∈ a.published
    rw [htables]
    exact hs.current
  · rw [hledger]
    exact hs.published
  · rw [hledger]
    exact hs.known
  · rw [hledger]
    exact hs.value
  · intro u d h hsmall hentry
    rw [hcounter] at hentry
    rw [hledger]
    exact hs.live u d h hsmall hentry
  · intro u d hsmall hentry
    rw [hcounter] at hentry
    exact hs.gone u d hsmall hentry
  · intro deltas hdeltas delta hmem
    obtain ⟨h, hentry, hpending⟩ := hs.pending deltas hdeltas delta hmem
    refine ⟨h, (hcounter _).trans hentry, ?_⟩
    rw [hledger]
    exact hpending

theorem Accounting.Loyal.of_ledgers {a : Accounting} {u : Nat} (h : a.Loyal u)
    {rt : BackendRuntime} (htraffic : rt.traffic = a.runtime.traffic)
    (htables : rt.tables = a.runtime.tables) :
    ({ a with runtime := rt } : Accounting).Loyal u := by
  refine ⟨?_, ?_⟩
  · change rt.tables ∈ a.published
    rw [htables]
    exact h.current
  · intro tables hmem handle hentry
    change rt.traffic.counters.entries[u]? = some handle
    rw [htraffic]
    exact h.handles tables hmem handle hentry

namespace MainLoop

variable {V : Type} (L : Libraries V)

/-- What a relay has recorded for a user. -/
def recorded (s : MainLoop V) (u : Nat) (d : Direction) : Nat := s.books.recorded u d

/-- What a user's counter is ahead of its checkpoint. -/
def pending (s : MainLoop V) (u : Nat) (d : Direction) : Nat := s.runtime.traffic.pending u d

/-- The items of an exchange that is an acknowledged traffic report. -/
def billedItems (exchange : Request × HttpReply V) : List (Nat × Nat × Nat) :=
  if exchange.1.path = "users/traffic" ∧
      (PanelClient.readAck L.serde exchange.1 exchange.2).isOk then
    (exchange.1.body.map PanelClient.readTraffic).getD []
  else []

def itemAmount (d : Direction) (item : Nat × Nat × Nat) : Nat :=
  match d with
  | .upload => item.2.1
  | .download => item.2.2

/-- What the panel has been told of a user, by the reports it has acknowledged. -/
def billed (s : MainLoop V) (u : Nat) (d : Direction) : Nat :=
  tally Prod.fst (itemAmount d) u (s.exchanges.flatMap (billedItems L))

/-- What a step takes out of the reach of every later report. -/
def lostBy (u : Nat) (d : Direction) (s : MainLoop V) (event : LoopEvent V) : Nat :=
  match s.ledgerEvent L event with
  | some event => Accounting.lostBy u d s.books event
  | none => 0

/-- What a run has lost. -/
def lostIn (u : Nat) (d : Direction) (s : MainLoop V) (events : List (LoopEvent V)) : Nat :=
  Machine.total (step L) (lostBy L u d) s events

/-- The exchange is no list of users without the user that is short enough to be applied. -/
def Lists (u : Nat) (config : Config) (exchange : Request × HttpReply V) : Prop :=
  exchange.1.path = "users" → ∀ users,
    PanelClient.readUsers L.serde exchange.1 exchange.2 = .ok users →
    users.length ≤ config.limits.maxUsers → BackendRuntime.isLive users u

variable {L} {s : MainLoop V} {owner : Nat → Nat} {lost : Nat → Direction → Nat}

/-- The books are kept over every step. -/
theorem step_sound (hs : s.books.Sound owner lost) (event : LoopEvent V) :
    ∃ owner', (step L s event).books.Sound owner' fun u d => lost u d + lostBy L u d s event := by
  have hbooked : ∃ owner', (s.booked L event).Sound owner' fun u d =>
      lost u d + lostBy L u d s event := by
    simp only [booked, lostBy]
    cases s.ledgerEvent L event with
    | none => exact ⟨owner, hs⟩
    | some event => exact Accounting.step_sound L.primitives L.fromUser hs event
  obtain ⟨owner', hbooked⟩ := hbooked
  obtain ⟨rt, -, htraffic, htables, heq⟩ := step_ledgers L s event
  rw [heq]
  exact ⟨owner', hbooked.of_ledgers htraffic htables⟩

theorem run_sound (hs : s.books.Sound owner lost) (events : List (LoopEvent V)) :
    ∃ owner', (Machine.run (step L) s events).books.Sound owner' fun u d =>
      lost u d + lostIn L u d s events := by
  induction events generalizing s owner lost with
  | nil => exact ⟨owner, hs⟩
  | cons event events ih =>
      obtain ⟨owner', hnext⟩ := step_sound hs event
      obtain ⟨owner'', hrest⟩ := ih hnext
      refine ⟨owner'', ?_⟩
      have hsum : (fun u d => lost u d + lostBy L u d s event +
            lostIn L u d (step L s event) events) =
          fun u d => lost u d + lostIn L u d s (event :: events) := by
        funext u d
        exact Nat.add_assoc ..
      rw [← hsum]
      exact hrest

/-! ### The reports in the exchanges -/

def item (delta : TrafficDelta) : Nat × Nat × Nat := (delta.userId, delta.upload, delta.download)

variable (L) in
/-- The report that an event concludes. -/
def concluded? (s : MainLoop V) : LoopEvent V → Option (List TrafficDelta)
  | .reply reply _ _ _ =>
      match s.phase with
      | .traffic deltas =>
          if (PanelClient.readAck L.serde (PanelClient.reportTraffic s.panel deltas) reply).isOk then
            some deltas
          else none
      | _ => none
  | _ => none

theorem booked_reports (s : MainLoop V) (event : LoopEvent V) :
    (s.booked L event).reports = s.reports ++ (concluded? L s event).toList := by
  have hnone : s.books.reports = s.reports ++ [] := (List.append_nil _).symm
  cases event with
  | reply reply session alive detect =>
      rw [booked, ledgerEvent, concluded?]
      cases hphase : s.phase with
      | firstUsers =>
          dsimp only [Accounting.step]
          cases s.books.inFlight <;> exact hnone
      | pollUsers =>
          dsimp only [Accounting.step]
          cases s.books.inFlight <;> exact hnone
      | traffic deltas =>
          have hflight : s.books.inFlight = some deltas := by rw [books, hphase]; rfl
          simp only [Accounting.step, hflight]
          cases PanelClient.readAck L.serde (PanelClient.reportTraffic s.panel deltas) reply with
          | error reason => exact hnone
          | ok _ => rfl
      | _ => exact hnone
  | record snapshot userId direction bytes =>
      rw [booked, ledgerEvent]
      dsimp only [Accounting.step]
      cases s.books.handle? snapshot userId <;> exact hnone
  | trafficTick =>
      rw [booked, ledgerEvent]
      cases s.phase with
      | select =>
          dsimp only [Accounting.step]
          cases s.books.inFlight <;> exact hnone
      | _ => exact hnone
  | _ => exact hnone

theorem step_reports (s : MainLoop V) (event : LoopEvent V) :
    (step L s event).reports = s.reports ++ (concluded? L s event).toList := by
  rw [← booked_reports]
  obtain ⟨rt, -, -, -, heq⟩ := step_ledgers L s event
  exact congrArg Accounting.reports heq

/-- The panel is told what the task reports. -/
theorem exchange_billed (s : MainLoop V) (event : LoopEvent V) :
    (s.exchange? event).toList.flatMap (billedItems L) =
      (concluded? L s event).toList.flatten.map item := by
  cases event with
  | reply reply session alive detect =>
      rw [exchange?, concluded?]
      split
      · rename_i deltas hphase
        have hpath := PanelClient.reportTraffic_path s.panel deltas
        rw [request?, hphase, Option.map_some, Option.toList_some, List.flatMap_singleton,
          billedItems]
        by_cases hack : (PanelClient.readAck L.serde
            (PanelClient.reportTraffic s.panel deltas) reply).isOk
        · rw [if_pos ⟨hpath, hack⟩, if_pos hack]
          refine (PanelClient.readTraffic_deltas deltas).trans ?_
          simp [item]
        · rw [if_neg fun h => hack h.2, if_neg hack]
          rfl
      · rename_i hother
        cases hrequest : s.request? with
        | none => rfl
        | some request =>
            have hpath : request.path ≠ "users/traffic" := by
              intro hpath
              obtain ⟨deltas, -, hphase⟩ := phase_of_traffic hrequest hpath
              exact hother deltas hphase
            rw [Option.map_some, Option.toList_some, List.flatMap_singleton, billedItems,
              if_neg fun h => hpath h.1]
            rfl
  | _ => rfl

theorem run_told (config : Config) (panel : PanelConfig) (events : List (LoopEvent V)) :
    (after L config panel events).exchanges.flatMap (billedItems L) =
      (after L config panel events).reports.flatten.map item := by
  have hstep : ∀ (s : MainLoop V) (event : LoopEvent V),
      s.exchanges.flatMap (billedItems L) = s.reports.flatten.map item →
      (step L s event).exchanges.flatMap (billedItems L) =
        (step L s event).reports.flatten.map item := by
    intro s event h
    rw [(step_noted L s event).2, step_reports, List.flatMap_append, List.flatten_append,
      List.map_append, h, exchange_billed]
  exact Machine.run_keeps hstep rfl events

/-- What the exchanges tell the panel is what the books call acknowledged. -/
theorem billed_eq (config : Config) (panel : PanelConfig) (events : List (LoopEvent V)) (u : Nat)
    (d : Direction) :
    (after L config panel events).billed L u d =
      (after L config panel events).books.acknowledged u d := by
  rw [billed, run_told, tally_map]
  cases d <;> rfl

/-! ### Users that every list has -/

/-- Only the reply to a request for the users is a poll. -/
theorem ledgerEvent_lists {u : Nat} {event : LoopEvent V} {ledger : AccountingEvent}
    (hevent : s.ledgerEvent L event = some ledger)
    (hlists : ∀ exchange ∈ s.exchange? event, Lists L u s.runtime.config exchange) :
    Accounting.Lists u s.books.runtime.config ledger := by
  intro users hsync hmax
  rw [hsync] at hevent
  obtain ⟨reply, session, alive, detect, rfl, hanswer, hphase⟩ :=
    pollAnswer?_eq_some L ((ledgerEvent_sync L s event _).mp hevent)
  have hrequest : s.request? = some (PanelClient.users s.panel) := by
    rw [request?]
    rcases hphase with hphase | hphase <;> rw [hphase]
  rw [exchange?, hrequest] at hlists
  exact hlists _ rfl rfl users hanswer.symm hmax

theorem step_loyal {u : Nat} (h : s.books.Loyal u) {event : LoopEvent V}
    (hlists : ∀ exchange ∈ s.exchange? event, Lists L u s.runtime.config exchange) :
    (step L s event).books.Loyal u ∧ ∀ d, lostBy L u d s event = 0 := by
  have hbooked : (s.booked L event).Loyal u ∧ ∀ d, lostBy L u d s event = 0 := by
    simp only [booked, lostBy]
    cases hevent : s.ledgerEvent L event with
    | none => exact ⟨h, fun _ => rfl⟩
    | some ledger =>
        have hledger := ledgerEvent_lists hevent hlists
        exact ⟨Accounting.step_loyal L.primitives L.fromUser h hledger,
          Accounting.lostBy_loyal h hledger⟩
  refine ⟨?_, hbooked.2⟩
  obtain ⟨rt, -, htraffic, htables, heq⟩ := step_ledgers L s event
  rw [heq]
  exact hbooked.1.of_ledgers htraffic htables

theorem lostIn_of_listed {u : Nat} (h : s.books.Loyal u) {events : List (LoopEvent V)}
    (hlists : ∀ exchange ∈ (Machine.run (step L) s events).exchanges,
      Lists L u s.runtime.config exchange) (d : Direction) :
    lostIn L u d s events = 0 := by
  induction events generalizing s with
  | nil => rfl
  | cons event events ih =>
      have hmono := run_exchanges L (step L s event) events
      rw [(step_noted L s event).2] at hmono
      have hfirst : ∀ exchange ∈ s.exchange? event, Lists L u s.runtime.config exchange := by
        intro exchange hmem
        apply hlists
        exact hmono.subset (List.mem_append_right _ (Option.mem_toList.mpr hmem))
      obtain ⟨hnext, hnow⟩ := step_loyal h hfirst
      have hrest : lostIn L u d (step L s event) events = 0 := by
        apply ih hnext
        rw [step_config]
        exact hlists
      change lostBy L u d s event + lostIn L u d (step L s event) events = 0
      rw [hnow, hrest]

variable (L)

theorem run_balance (config : Config) (panel : PanelConfig) (events : List (LoopEvent V)) {u : Nat}
    {d : Direction} (hsmall : (after L config panel events).recorded u d < 2 ^ 64) :
    let s := after L config panel events
    s.recorded u d =
      s.billed L u d + s.pending u d + lostIn L u d (start config panel) events := by
  have hstart : (start config panel : MainLoop V).books.Sound (fun _ => 0) fun _ _ => 0 :=
    Accounting.start_sound config
  obtain ⟨owner, hs⟩ := run_sound (L := L) hstart events
  have hbalance := hs.balance hsmall
  rw [Nat.zero_add] at hbalance
  intro s
  rw [billed_eq]
  exact hbalance

theorem run_listed (config : Config) (panel : PanelConfig) {events : List (LoopEvent V)} {u : Nat}
    (hlists : ∀ exchange ∈ (after L config panel events).exchanges, Lists L u config exchange)
    (d : Direction) : lostIn L u d (start config panel) events = 0 := by
  have hloyal : (start config panel : MainLoop V).books.Loyal u := Accounting.start_loyal config u
  exact lostIn_of_listed hloyal hlists d

/-- What a user's relays have recorded, as long as it is less than `2^64`, is billed by the panel,
pending, or lost; and nothing is lost of a user that every list has which the panel answers
with. -/
theorem panel_billing (config : Config) (panel : PanelConfig) (events : List (LoopEvent V))
    (u : Nat) (d : Direction) (hsmall : (after L config panel events).recorded u d < 2 ^ 64) :
    let s := after L config panel events
    s.recorded u d =
        s.billed L u d + s.pending u d + lostIn L u d (start config panel) events ∧
      ((∀ exchange ∈ s.exchanges, Lists L u config exchange) →
        s.billed L u d + s.pending u d = s.recorded u d) := by
  have hbalance := run_balance L config panel events hsmall
  refine ⟨hbalance, ?_⟩
  intro hlists
  rw [hbalance, run_listed L config panel hlists, Nat.add_zero]

theorem reportAuxiliaryState_reports (s : MainLoop V) :
    s.reportAuxiliaryState.reports = s.reports := by
  rw [reportAuxiliaryState]
  split <;> rfl

/-- A report of what is pending, once the panel has acknowledged it. -/
theorem report_acknowledged {s : MainLoop V} {u : Nat} {d : Direction} (hselect : s.phase = .select)
    (hpending : 0 < s.pending u d) {reply : HttpReply V}
    (hack : ∀ deltas, PanelClient.readAck L.serde (PanelClient.reportTraffic s.panel deltas)
      reply = .ok ()) (session alive detect : Nat) :
    (step L (step L s .trafficTick) (.reply reply session alive detect)).reports =
      s.reports ++ [s.runtime.traffic.pendingDeltas] := by
  have hdeltas : s.runtime.traffic.pendingDeltas ≠ [] := by
    intro hnil
    rw [pending, TrafficLedger.pending, hnil] at hpending
    exact Nat.lt_irrefl 0 hpending
  have htick : step L s .trafficTick = s.enter (.traffic s.runtime.traffic.pendingDeltas) := by
    rw [step, inSelect, hselect]
    dsimp only
    rw [reportTraffic, if_neg hdeltas]
  rw [htick]
  change (reportAuxiliaryState (concludeTraffic _ _ (PanelClient.readAck L.serde
    (PanelClient.reportTraffic s.panel _) reply))).reports = _
  rw [hack, reportAuxiliaryState_reports]
  rfl

/-- The bytes that an event asks to record. -/
def bytes : LoopEvent V → Nat
  | .record _ _ _ bytes => bytes
  | _ => 0

theorem ledgerEvent_bytes {s : MainLoop V} {event : LoopEvent V} {ledger : AccountingEvent}
    (hevent : s.ledgerEvent L event = some ledger) : ledger.bytes = bytes event := by
  cases event with
  | reply reply session alive detect =>
      rw [ledgerEvent] at hevent
      split at hevent <;> cases hevent <;> rfl
  | trafficTick =>
      rw [ledgerEvent] at hevent
      split at hevent <;> cases hevent
      rfl
  | _ => cases hevent <;> rfl

theorem recorded_step_le (s : MainLoop V) (event : LoopEvent V) (u : Nat) (d : Direction) :
    (step L s event).recorded u d ≤ s.recorded u d + bytes event := by
  obtain ⟨rt, -, -, -, heq⟩ := step_ledgers L s event
  have hrecorded : (step L s event).recorded u d = (s.booked L event).recorded u d := by
    rw [recorded, heq]
    rfl
  rw [hrecorded, booked]
  cases hevent : s.ledgerEvent L event with
  | none => exact Nat.le_add_right ..
  | some ledger =>
      rw [← ledgerEvent_bytes L hevent]
      exact Accounting.recorded_step_le L.primitives L.fromUser s.books ledger u d

theorem recorded_run_le (s : MainLoop V) (events : List (LoopEvent V)) (u : Nat) (d : Direction) :
    (Machine.run (step L) s events).recorded u d ≤ s.recorded u d + (events.map bytes).sum := by
  induction events generalizing s with
  | nil => exact Nat.le_refl _
  | cons event events ih =>
      have hfirst := recorded_step_le L s event u d
      have hrest := ih (step L s event)
      rw [Machine.run_cons, List.map_cons, List.sum_cons]
      omega

end MainLoop

/-! ### A run -/

/-- A panel that answers with its users. -/
def sampleSerde : Serde (List PanelUser) where
  isNull _ := false
  envelope rows := some ⟨1, none, some rows⟩
  users := some
  detectRules _ := some []

def sampleLibraries : Libraries (List PanelUser) where
  primitives := .standard
  fromUser := BackendRuntime.noLimits
  serde := sampleSerde
  compile _ := none

def samplePanel : PanelConfig := ⟨"key", 3, 60, 60, 60⟩

/-- The probe and the first rules go unanswered, the users are listed. -/
def sampleStart : List (LoopEvent (List PanelUser)) :=
  List.replicate 5 (.reply .unsent 0 0 0) ++ [.reply (.json [Accounting.billedRow]) 0 0 0]

/-- Bytes are recorded while the report of the earlier ones is under way. -/
def sampleReport : List (LoopEvent (List PanelUser)) :=
  sampleStart ++ [.record 1 7 .upload 5, .trafficTick, .record 1 7 .upload 3,
    .reply (.json [Accounting.billedRow]) 0 0 0]

/-- The lists that the panel answers with have user 7. -/
theorem MainLoop.sample_lists {events : List (LoopEvent (List PanelUser))}
    (hevents : ∀ (reply : HttpReply (List PanelUser)) (session alive detect : Nat),
      .reply reply session alive detect ∈ events →
        reply = .unsent ∨ reply = .json [Accounting.billedRow]) :
    ∀ exchange ∈ (after sampleLibraries BackendRuntime.sampleConfig samplePanel events).exchanges,
      Lists sampleLibraries 7 BackendRuntime.sampleConfig exchange := by
  intro exchange hmem _ users husers _
  obtain ⟨before, session, alive, detect, later, heq, -⟩ := mem_exchanges sampleLibraries hmem
  have hreply : .reply exchange.2 session alive detect ∈ events := by
    rw [heq]
    exact List.mem_append_right _ List.mem_cons_self
  rcases hevents exchange.2 session alive detect hreply with hunsent | hjson
  · rw [hunsent] at husers
    cases husers
  · rw [hjson] at husers
    cases husers
    decide

theorem MainLoop.panel_billing_sample :
    let s := after sampleLibraries BackendRuntime.sampleConfig samplePanel sampleReport
    (∀ exchange ∈ s.exchanges, Lists sampleLibraries 7 BackendRuntime.sampleConfig exchange) ∧
      s.billed sampleLibraries 7 .upload + s.pending 7 .upload = s.recorded 7 .upload := by
  intro s
  have hlists : ∀ exchange ∈ s.exchanges,
      Lists sampleLibraries 7 BackendRuntime.sampleConfig exchange := by
    apply sample_lists
    intro reply session alive detect hmem
    simp only [sampleReport, sampleStart, List.mem_append, List.mem_replicate, List.mem_cons,
      List.not_mem_nil, or_false, LoopEvent.reply.injEq, reduceCtorEq, false_or] at hmem
    tauto
  have hsmall : s.recorded 7 .upload < 2 ^ 64 := by
    have hle := recorded_run_le sampleLibraries (start BackendRuntime.sampleConfig samplePanel)
      sampleReport 7 .upload
    exact Nat.lt_of_le_of_lt hle (by decide)
  exact ⟨hlists, (panel_billing sampleLibraries BackendRuntime.sampleConfig samplePanel sampleReport
    7 .upload hsmall).2 hlists⟩

end SsrBackend
