import Mathlib.Data.List.Perm.Subperm
import SsrBackend.Runtime.MainLoop

/-!
What becomes of the events that the relays emit, over whole runs of the supervisor's
loop: they are dropped, wait in the channel, stand in one of the two maps, or have
been reported. The maps are logs of keys (`KeyLog`), and no step of the loop adds to
them but the receipt of one event.
-/

namespace SsrBackend

namespace MainLoop

variable {V : Type} (L : Libraries V)

/-- The event that the arm of the channel takes. -/
def received? (s : MainLoop V) : Option RelayEvent :=
  match s.phase with
  | .select => s.queue.items.head?
  | _ => none

/-- What a poll does to a map whose keys name a user. -/
def pollOp {κ ν : Type} (s : MainLoop V) (user : κ → Nat) (reply : HttpReply V) : LogOp κ ν :=
  Reporter.syncOp ⟨s.runtime, []⟩ user
    (PanelClient.readUsers L.serde (PanelClient.users s.panel) reply)

/-- What an event does to the alive IPs. A report without items clears them too. -/
def aliveOp (s : MainLoop V) : LoopEvent V → LogOp AliveIpKey Unit
  | .reply reply _ alive _ =>
      match s.phase with
      | .firstUsers => s.pollOp L AliveIpKey.userId reply
      | .pollUsers => s.pollOp L AliveIpKey.userId reply
      | .pollRules => .expire alive
      | .traffic _ => if s.runtime.aliveIps.keys = [] then .clear else .idle
      | .aliveIps items =>
          if (PanelClient.readAck L.serde
              (PanelClient.reportAliveIps s.panel items) reply).isOk then .clear
          else .idle
      | _ => .idle
  | .received _ alive _ =>
      match s.received? with
      | some (.connect userId ip _) => .record ⟨userId, ip⟩ () alive.now alive.walk
      | _ => .idle
  | .trafficTick =>
      match s.phase with
      | .select =>
          if s.runtime.traffic.pendingDeltas = [] ∧ s.runtime.aliveIps.keys = [] then .clear
          else .idle
      | _ => .idle
  | _ => .idle

/-- What an event does to the detect logs. -/
def detectOp (s : MainLoop V) : LoopEvent V → LogOp DetectLogKey DetectLogReport
  | .reply reply _ _ detect =>
      match s.phase with
      | .firstUsers => s.pollOp L DetectLogKey.userId reply
      | .pollUsers => s.pollOp L DetectLogKey.userId reply
      | .pollRules => .expire detect
      | .detectLogs items =>
          if (PanelClient.readAck L.serde
              (PanelClient.reportDetectLogs s.panel items) reply).isOk then .clear
          else .idle
      | _ => .idle
  | .received _ _ detect =>
      match s.received? with
      | some (.detect userId listId ip) =>
          .record ⟨userId, listId, ip⟩ ⟨userId, listId⟩ detect.now detect.walk
      | _ => .idle
  | _ => .idle

theorem reportAuxiliaryState_maps (s : MainLoop V) :
    s.reportAuxiliaryState.runtime.aliveIps =
        s.runtime.aliveIps.apply (if s.runtime.aliveIps.keys = [] then .clear else .idle) ∧
      s.reportAuxiliaryState.runtime.detectLogs = s.runtime.detectLogs := by
  rw [reportAuxiliaryState]
  by_cases hnone : s.runtime.aliveIps.keys = []
  · simp only [hnone, List.map_nil, if_true]
    exact ⟨rfl, rfl⟩
  · simp only [hnone, List.map_eq_nil_iff, if_false]
    exact ⟨rfl, rfl⟩

theorem sync_maps (s : MainLoop V) (reply : HttpReply V) :
    let answer := PanelClient.readUsers L.serde (PanelClient.users s.panel) reply
    (s.sync L answer).runtime.aliveIps =
        s.runtime.aliveIps.apply (s.pollOp L AliveIpKey.userId reply) ∧
      (s.sync L answer).runtime.detectLogs =
        s.runtime.detectLogs.apply (s.pollOp L DetectLogKey.userId reply) :=
  Reporter.synced_maps L.primitives L.fromUser ⟨s.runtime, []⟩ _

theorem refreshDetectRules_runtime (s : MainLoop V) (reply : HttpReply V) :
    (s.refreshDetectRules L reply).runtime = s.runtime := by
  rw [refreshDetectRules]
  split <;> rfl

theorem answered_maps (s : MainLoop V) (reply : HttpReply V) (session alive detect : Nat) :
    let event : LoopEvent V := .reply reply session alive detect
    (s.answered L reply session alive detect).runtime.aliveIps =
        s.runtime.aliveIps.apply (s.aliveOp L event) ∧
      (s.answered L reply session alive detect).runtime.detectLogs =
        s.runtime.detectLogs.apply (s.detectOp L event) := by
  dsimp only
  rw [answered, aliveOp, detectOp]
  cases s.phase with
  | firstRules =>
      dsimp only [enter]
      rw [refreshDetectRules_runtime]
      exact ⟨rfl, rfl⟩
  | firstUsers => exact sync_maps L s reply
  | pollUsers => exact sync_maps L s reply
  | pollRules =>
      dsimp only [enter, expireLocalState, BackendRuntime.expireLocalState]
      rw [refreshDetectRules_runtime]
      exact ⟨rfl, rfl⟩
  | traffic deltas =>
      dsimp only
      cases PanelClient.readAck L.serde (PanelClient.reportTraffic s.panel deltas) reply with
      | error reason => exact reportAuxiliaryState_maps s
      | ok _ => exact reportAuxiliaryState_maps (s.concludeTraffic deltas (.ok ()))
  | aliveIps items =>
      dsimp only
      cases PanelClient.readAck L.serde (PanelClient.reportAliveIps s.panel items) reply with
      | error reason => exact ⟨rfl, rfl⟩
      | ok _ => exact ⟨rfl, rfl⟩
  | detectLogs items =>
      dsimp only
      cases PanelClient.readAck L.serde (PanelClient.reportDetectLogs s.panel items) reply with
      | error reason => exact ⟨rfl, rfl⟩
      | ok _ => exact ⟨rfl, rfl⟩
  | _ => exact ⟨rfl, rfl⟩

theorem receive_eq (s : MainLoop V) (session : Reading SessionKey Unit)
    (alive : Reading AliveIpKey Unit) (detect : Reading DetectLogKey DetectLogReport) :
    (s.queue.items = [] ∧ s.receive session alive detect = s) ∨
    ∃ event queue, s.queue.items = event :: queue.items ∧
      s.receive session alive detect = { s with
        runtime := s.runtime.recordEvent event session alive detect
        queue := queue } := by
  rw [receive]
  cases hitems : s.queue.items with
  | nil =>
      have htake : s.queue.take 1 = none := by
        rw [BoundedQueue.take, if_neg]
        simp [hitems]
      rw [htake]
      exact Or.inl ⟨rfl, rfl⟩
  | cons event rest =>
      obtain ⟨fits, htake⟩ := BoundedQueue.take_of_items
        (show s.queue.items = [event] ++ rest from hitems) (List.cons_ne_nil _ _)
      rw [List.length_singleton] at htake
      rw [htake]
      exact Or.inr ⟨event, _, rfl, rfl⟩

/-- A step does to the two maps what `aliveOp` and `detectOp` say. -/
theorem step_maps (s : MainLoop V) (event : LoopEvent V) :
    (step L s event).runtime.aliveIps = s.runtime.aliveIps.apply (s.aliveOp L event) ∧
      (step L s event).runtime.detectLogs = s.runtime.detectLogs.apply (s.detectOp L event) := by
  cases event with
  | reply reply session alive detect => exact answered_maps L (s.exchanged reply) reply ..
  | emit event =>
      rw [step, emit]
      split
      · exact ⟨rfl, rfl⟩
      · split <;> exact ⟨rfl, rfl⟩
  | record snapshot userId direction bytes =>
      rw [step, record]
      split <;> exact ⟨rfl, rfl⟩
  | received session alive detect =>
      rw [step, inSelect, aliveOp, detectOp, received?]
      cases s.phase with
      | select =>
          dsimp only
          rcases receive_eq s session alive detect with ⟨hnil, heq⟩ | ⟨event, queue, hcons, heq⟩
          · rw [heq, hnil]
            exact ⟨rfl, rfl⟩
          · rw [heq, hcons]
            cases event <;> exact ⟨rfl, rfl⟩
      | _ => exact ⟨rfl, rfl⟩
  | trafficTick =>
      rw [step, inSelect, aliveOp]
      cases s.phase with
      | select =>
          dsimp only
          rw [reportTraffic]
          by_cases hnone : s.runtime.traffic.pendingDeltas = []
          · simp only [hnone, true_and, if_true]
            exact reportAuxiliaryState_maps s
          · simp only [hnone, false_and, if_false]
            exact ⟨rfl, rfl⟩
      | _ => exact ⟨rfl, rfl⟩
  | pollTick =>
      rw [step, inSelect]
      split <;> exact ⟨rfl, rfl⟩
  | heartbeatTick uptime =>
      rw [step, inSelect]
      split <;> exact ⟨rfl, rfl⟩
  | shutdown =>
      rw [step, inSelect]
      split <;> exact ⟨rfl, rfl⟩

/-- What a step does to the channel. -/
theorem step_queue (s : MainLoop V) (event : LoopEvent V) :
    (∃ relay, event = .emit relay ∧
      (step L s event).queue.items = s.queue.items ++ [relay]) ∨
    (∃ relay, s.received? = some relay ∧ s.queue.items = relay :: (step L s event).queue.items) ∨
    ((step L s event).queue.items = s.queue.items ∧
      ∀ session alive detect, event = .received session alive detect → s.received? = none) := by
  cases event with
  | reply reply session alive detect =>
      have hqueue := (answered_apart L (s.exchanged reply) reply session alive detect).queue_eq
      refine Or.inr (Or.inr ⟨?_, by rintro _ _ _ ⟨⟩⟩)
      rw [step, hqueue]
      rfl
  | emit relay =>
      rw [step, emit]
      split
      · exact Or.inr (Or.inr ⟨rfl, by rintro _ _ _ ⟨⟩⟩)
      · split
        · rename_i queue hput
          refine Or.inl ⟨relay, rfl, ?_⟩
          rw [BoundedQueue.put] at hput
          split at hput
          · cases hput
            rfl
          · cases hput
        · exact Or.inr (Or.inr ⟨rfl, by rintro _ _ _ ⟨⟩⟩)
  | record snapshot userId direction bytes =>
      rw [step, record]
      split <;> exact Or.inr (Or.inr ⟨rfl, by rintro _ _ _ ⟨⟩⟩)
  | received session alive detect =>
      rw [step, inSelect, received?]
      cases s.phase with
      | select =>
          dsimp only
          rcases receive_eq s session alive detect with ⟨hnil, heq⟩ | ⟨event, queue, hcons, heq⟩
          · rw [heq, hnil]
            exact Or.inr (Or.inr ⟨rfl, fun _ _ _ _ => rfl⟩)
          · rw [heq, hcons]
            exact Or.inr (Or.inl ⟨event, rfl, rfl⟩)
      | _ => exact Or.inr (Or.inr ⟨rfl, fun _ _ _ _ => rfl⟩)
  | trafficTick =>
      refine Or.inr (Or.inr ⟨?_, by rintro _ _ _ ⟨⟩⟩)
      rcases inSelect_cases s reportTraffic with hsame | ⟨-, heq⟩
      · rw [step, hsame]
      · rw [step, heq, (reportTraffic_apart s).queue_eq]
  | pollTick =>
      refine Or.inr (Or.inr ⟨?_, by rintro _ _ _ ⟨⟩⟩)
      rw [step, inSelect]
      split <;> rfl
  | heartbeatTick uptime =>
      refine Or.inr (Or.inr ⟨?_, by rintro _ _ _ ⟨⟩⟩)
      rw [step, inSelect]
      split <;> rfl
  | shutdown =>
      refine Or.inr (Or.inr ⟨?_, by rintro _ _ _ ⟨⟩⟩)
      rw [step, inSelect]
      split <;> rfl

/-! ### The account of a kind of events -/

/-- The key that a step records in a log. -/
def recordedKey? {κ ν : Type} : LogOp κ ν → Option κ
  | .record key _ _ _ => some key
  | _ => none

/-- A kind of events: the item of an event, the map that keeps the keys and what is done to it, the
item of a key, and the items that the panel has acknowledged with an exchange. -/
structure Watch (V κ ν ρ : Type) [BEq κ] [Hashable κ] where
  item? : RelayEvent → Option ρ
  view : MainLoop V → BoundedTtlMap κ ν
  op : MainLoop V → LoopEvent V → LogOp κ ν
  report : κ → ρ
  told : Request × HttpReply V → List ρ

namespace Watch

variable {κ ν ρ : Type} [BEq κ] [Hashable κ]

/-- The items of the keys that are kept. -/
def kept (w : Watch V κ ν ρ) (s : MainLoop V) : List ρ := (w.view s).keys.map w.report

/-- The items of the events in the channel. -/
def queued (w : Watch V κ ν ρ) (s : MainLoop V) : List ρ := s.queue.items.filterMap w.item?

/-- The items that the panel has acknowledged. -/
def acknowledged (w : Watch V κ ν ρ) (s : MainLoop V) : List ρ := s.exchanges.flatMap w.told

/-- The item that a relay emits. -/
def emitted? (w : Watch V κ ν ρ) : LoopEvent V → Option ρ
  | .emit event => w.item? event
  | _ => none

/-- What a step does to the log, and how an exchange and a receipt show in it. -/
structure Lawful (w : Watch V κ ν ρ) (s : MainLoop V) (event : LoopEvent V) : Prop where
  follows : w.view (step L s event) = (w.view s).apply (w.op s event)
  records : ∀ key, recordedKey? (w.op s event) = some key →
    (∃ session alive detect, event = .received session alive detect) ∧
      s.received?.bind w.item? = some (w.report key)
  tells : (s.exchange? event).toList.flatMap w.told = [] ∨
    ((s.exchange? event).toList.flatMap w.told = w.kept s ∧ w.op s event = .clear)

variable [LawfulBEq κ] [DecidableEq ρ] {w : Watch V κ ν ρ}

theorem kept_apply {m : BoundedTtlMap κ ν} (op : LogOp κ ν) (report : κ → ρ) (r : ρ) :
    ((m.apply op).keys.map report).count r ≤
      ((recordedKey? op).map report).toList.count r + (m.keys.map report).count r := by
  have hsub : (m.apply op).keys.Subperm ((recordedKey? op).toList ++ m.keys) := by
    apply Std.HashMap.nodup_keys.subperm
    intro key hkey
    rcases BoundedTtlMap.mem_of_mem_apply (Std.HashMap.mem_keys.mp hkey) with
      ⟨value, now, walk, rfl⟩ | ⟨hold, -⟩
    · exact List.mem_append_left _ (List.mem_singleton_self _)
    · exact List.mem_append_right _ (Std.HashMap.mem_keys.mpr hold)
  have hcount := hsub.countP_le fun key => report key == r
  simp only [List.count_eq_countP, List.countP_map, Function.comp_def]
  cases hop : recordedKey? op with
  | none => simpa [hop] using hcount
  | some key => simpa [hop, List.countP_cons, Nat.add_comm] using hcount

theorem kept_new (ttl capacity : Nat) :
    (BoundedTtlMap.new ttl capacity : BoundedTtlMap κ ν).keys = [] := by
  apply List.eq_nil_iff_forall_not_mem.mpr
  intro key hkey
  exact Std.HashMap.not_mem_empty (Std.HashMap.mem_keys.mp hkey)

theorem kept_clear (m : BoundedTtlMap κ ν) : (m.apply .clear).keys = [] := by
  apply List.eq_nil_iff_forall_not_mem.mpr
  intro key hkey
  exact BoundedTtlMap.not_mem_clear m key (Std.HashMap.mem_keys.mp hkey)

/-- The items that a step records. -/
def recorded (w : Watch V κ ν ρ) (s : MainLoop V) (event : LoopEvent V) : List ρ :=
  ((recordedKey? (w.op s event)).map w.report).toList

variable {L} {s : MainLoop V} {event : LoopEvent V}

/-- What the panel acknowledges has been kept, and goes. -/
theorem Lawful.kept_le (h : w.Lawful L s event) (r : ρ) :
    ((s.exchange? event).toList.flatMap w.told).count r + (w.kept (step L s event)).count r ≤
      (w.recorded s event).count r + (w.kept s).count r := by
  have hnext : w.kept (step L s event) = ((w.view s).apply (w.op s event)).keys.map w.report := by
    rw [kept, h.follows]
  rcases h.tells with hnone | ⟨htold, hclear⟩
  · rw [hnone, hnext, List.count_nil, Nat.zero_add]
    exact kept_apply (w.op s event) w.report r
  · rw [htold, hnext, hclear, kept_clear, List.map_nil, List.count_nil]
    omega

omit [LawfulBEq κ] in
/-- What is recorded has been in the channel, and what is in the channel has been emitted. -/
theorem Lawful.queued_le (h : w.Lawful L s event) (r : ρ) :
    (w.recorded s event).count r + (w.queued (step L s event)).count r ≤
      (w.queued s).count r + (w.emitted? event).toList.count r := by
  cases hkey : recordedKey? (w.op s event) with
  | some key =>
      obtain ⟨⟨session, alive, detect, rfl⟩, hitem⟩ := h.records key hkey
      rcases step_queue L s (.received session alive detect) with
        ⟨_, heq, -⟩ | ⟨relay, hreceived, hqueue⟩ | ⟨-, hnone⟩
      · cases heq
      · rw [hreceived, Option.bind_some] at hitem
        rw [recorded, hkey, queued, queued, hqueue, List.filterMap_cons, hitem]
        simp [List.count_cons]
        omega
      · rw [hnone session alive detect rfl] at hitem
        cases hitem
  | none =>
      have hrecorded : w.recorded s event = [] := by rw [recorded, hkey]; rfl
      rw [hrecorded, List.count_nil, Nat.zero_add]
      rcases step_queue L s event with ⟨relay, rfl, hqueue⟩ | ⟨relay, -, hqueue⟩ | ⟨hqueue, -⟩
      · rw [queued, hqueue, List.filterMap_append, List.count_append]
        rfl
      · rw [queued, queued, hqueue, List.filterMap_cons]
        cases w.item? relay with
        | none => exact Nat.le_add_right ..
        | some item => exact Nat.le_add_right_of_le List.count_le_count_cons
      · rw [queued, hqueue]
        exact Nat.le_add_right ..

/-- Every item that is acknowledged, kept or queued is paid for by an event of its own. -/
theorem step_account (h : w.Lawful L s event) (r : ρ) :
    (w.acknowledged (step L s event)).count r + (w.kept (step L s event)).count r +
        (w.queued (step L s event)).count r ≤
      (w.acknowledged s).count r + (w.kept s).count r + (w.queued s).count r +
        (w.emitted? event).toList.count r := by
  have hkept := h.kept_le r
  have hqueued := h.queued_le r
  rw [acknowledged, (step_noted L s event).2, List.flatMap_append, List.count_append]
  rw [acknowledged]
  omega

end Watch

/-! ### What a report holds -/

/-- A report that is waited for holds what its map holds. -/
structure Reporting (s : MainLoop V) : Prop where
  alive : ∀ items, s.phase = .aliveIps items →
    items = s.runtime.aliveIps.keys.map AliveIpKey.report ∧ items ≠ []
  detect : ∀ items, s.phase = .detectLogs items →
    items = s.runtime.detectLogs.values ∧ items ≠ []

theorem reporting_of_phase {s : MainLoop V} (halive : ∀ items, s.phase ≠ .aliveIps items)
    (hdetect : ∀ items, s.phase ≠ .detectLogs items) : s.Reporting :=
  ⟨fun items h => absurd h (halive items), fun items h => absurd h (hdetect items)⟩

theorem Reporting.of_maps {s t : MainLoop V} (h : s.Reporting) (hphase : t.phase = s.phase)
    (halive : t.runtime.aliveIps = s.runtime.aliveIps)
    (hdetect : t.runtime.detectLogs = s.runtime.detectLogs) : t.Reporting := by
  refine ⟨?_, ?_⟩
  · rw [hphase, halive]
    exact h.alive
  · rw [hphase, hdetect]
    exact h.detect

theorem reportDetectLogs_reporting (s : MainLoop V) : s.reportDetectLogs.Reporting := by
  rw [reportDetectLogs]
  by_cases hnone : s.runtime.detectLogs.values = []
  · simp only [hnone, if_true]
    exact reporting_of_phase (by rintro _ ⟨⟩) (by rintro _ ⟨⟩)
  · simp only [hnone, if_false]
    refine ⟨by rintro _ ⟨⟩, ?_⟩
    rintro items ⟨⟩
    exact ⟨rfl, hnone⟩

theorem reportAuxiliaryState_reporting (s : MainLoop V) : s.reportAuxiliaryState.Reporting := by
  rw [reportAuxiliaryState]
  by_cases hnone : s.runtime.aliveIps.keys.map AliveIpKey.report = []
  · simp only [hnone, if_true]
    exact reportDetectLogs_reporting _
  · simp only [hnone, if_false]
    refine ⟨?_, by rintro _ ⟨⟩⟩
    rintro items ⟨⟩
    exact ⟨rfl, hnone⟩

theorem reportTraffic_reporting (s : MainLoop V) : s.reportTraffic.Reporting := by
  rw [reportTraffic]
  by_cases hnone : s.runtime.traffic.pendingDeltas = []
  · simp only [hnone, if_true]
    exact reportAuxiliaryState_reporting s
  · simp only [hnone, if_false]
    exact reporting_of_phase (by rintro _ ⟨⟩) (by rintro _ ⟨⟩)

theorem answered_reporting {s : MainLoop V} (h : s.Reporting) (reply : HttpReply V)
    (session alive detect : Nat) : (s.answered L reply session alive detect).Reporting := by
  by_cases hwaits : s.request? = none
  · rw [answered_idle L hwaits]
    exact h
  · have hgoes := answered_goes L s reply session alive detect hwaits
    rw [answered] at hgoes ⊢
    cases hphase : s.phase with
    | select => exact absurd (by rw [request?, hphase]) hwaits
    | traffic deltas => exact reportAuxiliaryState_reporting _
    | aliveIps items =>
        dsimp only
        split
        · exact reportDetectLogs_reporting _
        · exact reporting_of_phase (by rintro _ ⟨⟩) (by rintro _ ⟨⟩)
    | _ =>
        rw [hphase] at hgoes
        apply reporting_of_phase
        · intro items heq
          dsimp only at heq hgoes
          rw [heq] at hgoes
          cases hgoes
        · intro items heq
          dsimp only at heq hgoes
          rw [heq] at hgoes
          cases hgoes

theorem inSelect_reporting {s : MainLoop V} (h : s.Reporting) {arm : MainLoop V → MainLoop V}
    (harm : s.phase = .select → (arm s).Reporting) : (s.inSelect arm).Reporting := by
  rcases inSelect_cases s arm with hsame | ⟨hphase, heq⟩
  · rw [hsame]
    exact h
  · rw [heq]
    exact harm hphase

theorem step_reporting {s : MainLoop V} (h : s.Reporting) (event : LoopEvent V) :
    (step L s event).Reporting := by
  cases event with
  | reply reply session alive detect =>
      have hexchanged : (s.exchanged reply).Reporting := h.of_maps rfl rfl rfl
      exact answered_reporting L hexchanged reply session alive detect
  | emit event =>
      rw [step, emit]
      split
      · exact h
      · split
        · exact h.of_maps rfl rfl rfl
        · exact h
  | record snapshot userId direction bytes =>
      rw [step, record]
      split
      · exact h
      · exact h.of_maps rfl rfl rfl
  | received session alive detect =>
      apply inSelect_reporting h
      intro hphase
      rcases receive_eq s session alive detect with ⟨-, heq⟩ | ⟨event, queue, -, heq⟩
      · rw [heq]
        exact h
      · rw [heq]
        apply reporting_of_phase
        · intro items hitems
          exact absurd (hphase.symm.trans hitems) (by rintro ⟨⟩)
        · intro items hitems
          exact absurd (hphase.symm.trans hitems) (by rintro ⟨⟩)
  | trafficTick => exact inSelect_reporting h fun _ => reportTraffic_reporting s
  | _ =>
      apply inSelect_reporting h
      intro _
      exact reporting_of_phase (by rintro _ ⟨⟩) (by rintro _ ⟨⟩)

/-! ### The alive IPs and the detect logs -/

/-- The exchange is an acknowledged POST to the path, and this is what `read` makes of its body. -/
def toldItems {ρ : Type} (path : String) (read : Json → List ρ)
    (exchange : Request × HttpReply V) : List ρ :=
  if exchange.1.path = path ∧ (PanelClient.readAck L.serde exchange.1 exchange.2).isOk then
    (exchange.1.body.map read).getD []
  else []

def aliveItem? : RelayEvent → Option AliveIpReport
  | .connect userId ip _ => some ⟨userId, ip⟩
  | .detect _ _ _ => none

def detectItem? : RelayEvent → Option DetectLogReport
  | .connect _ _ _ => none
  | .detect userId listId _ => some ⟨userId, listId⟩

def aliveIps : Watch V AliveIpKey Unit AliveIpReport where
  item? := aliveItem?
  view s := s.runtime.aliveIps
  op := aliveOp L
  report := AliveIpKey.report
  told := toldItems L "users/aliveip" PanelClient.readAliveIps

def detectLogs : Watch V DetectLogKey DetectLogReport DetectLogReport where
  item? := detectItem?
  view s := s.runtime.detectLogs
  op := detectOp L
  report := DetectLogKey.report
  told := toldItems L "users/detectlog" PanelClient.readDetectLogs

theorem recordedKey?_pollOp {κ ν : Type} (s : MainLoop V) (user : κ → Nat) (reply : HttpReply V) :
    recordedKey? (s.pollOp L user reply : LogOp κ ν) = none := by
  rw [pollOp, Reporter.syncOp.eq_def]
  split
  · split <;> rfl
  · rfl

/-- Only the receipt of a connect event records an alive IP. -/
theorem aliveOp_records {s : MainLoop V} {event : LoopEvent V} {key : AliveIpKey}
    (h : recordedKey? (s.aliveOp L event) = some key) :
    (∃ session alive detect, event = .received session alive detect) ∧
      s.received?.bind aliveItem? = some key.report := by
  cases event with
  | reply reply session alive detect =>
      rw [aliveOp] at h
      split at h
      · rw [recordedKey?_pollOp] at h
        cases h
      · rw [recordedKey?_pollOp] at h
        cases h
      · cases h
      · split at h <;> cases h
      · split at h <;> cases h
      · cases h
  | received session alive detect =>
      refine ⟨⟨session, alive, detect, rfl⟩, ?_⟩
      rw [aliveOp] at h
      split at h
      · rename_i hreceived
        cases h
        rw [hreceived]
        rfl
      · cases h
  | trafficTick =>
      rw [aliveOp] at h
      split at h
      · split at h <;> cases h
      · cases h
  | _ => cases h

/-- Only the receipt of a detect event records a detect log. -/
theorem detectOp_records {s : MainLoop V} {event : LoopEvent V} {key : DetectLogKey}
    (h : recordedKey? (s.detectOp L event) = some key) :
    (∃ session alive detect, event = .received session alive detect) ∧
      s.received?.bind detectItem? = some key.report := by
  cases event with
  | reply reply session alive detect =>
      rw [detectOp] at h
      split at h
      · rw [recordedKey?_pollOp] at h
        cases h
      · rw [recordedKey?_pollOp] at h
        cases h
      · cases h
      · split at h <;> cases h
      · cases h
  | received session alive detect =>
      refine ⟨⟨session, alive, detect, rfl⟩, ?_⟩
      rw [detectOp] at h
      split at h
      · rename_i hreceived
        cases h
        rw [hreceived]
        rfl
      · cases h
  | _ => cases h

/-- An acknowledged POST tells the panel what is kept, and clears it. -/
theorem tells_of_posts {κ ν ρ : Type} [BEq κ] [Hashable κ] {w : Watch V κ ν ρ} {s : MainLoop V}
    {path : String} {read : Json → List ρ} (hw : w.told = toldItems L path read)
    (hposts : ∀ request reply session alive detect, s.request? = some request →
      request.path = path → (PanelClient.readAck L.serde request reply).isOk →
      request.body.map read = some (w.kept s) ∧
        w.op s (.reply reply session alive detect) = .clear) (event : LoopEvent V) :
    (s.exchange? event).toList.flatMap w.told = [] ∨
      ((s.exchange? event).toList.flatMap w.told = w.kept s ∧ w.op s event = .clear) := by
  cases event with
  | reply reply session alive detect =>
      rw [exchange?, hw]
      cases hrequest : s.request? with
      | none => exact Or.inl rfl
      | some request =>
          rw [Option.map_some, Option.toList_some, List.flatMap_singleton, toldItems]
          split
          · rename_i hsent
            obtain ⟨hbody, hclear⟩ :=
              hposts request reply session alive detect hrequest hsent.1 hsent.2
            rw [hbody]
            exact Or.inr ⟨rfl, hclear⟩
          · exact Or.inl rfl
  | _ => exact Or.inl rfl

theorem aliveIps_lawful {s : MainLoop V} (h : s.Reporting) (event : LoopEvent V) :
    (aliveIps L).Lawful L s event := by
  refine ⟨(step_maps L s event).1, fun key hkey => aliveOp_records L hkey, ?_⟩
  apply tells_of_posts L rfl
  intro request reply session alive detect hrequest hpath hack
  obtain ⟨items, rfl, hphase⟩ := phase_of_aliveIps hrequest hpath
  refine ⟨?_, ?_⟩
  · refine congrArg some ((PanelClient.readAliveIps_items items).trans ?_)
    exact (h.alive items hphase).1
  · have hop : s.aliveOp L (.reply reply session alive detect) = .clear := by
      rw [aliveOp, hphase]
      exact if_pos hack
    exact hop

/-- The item of a key is the one it was recorded with. -/
def Labelled (s : MainLoop V) : Prop := Reporter.Labelled ⟨s.runtime, []⟩

theorem step_labelled {s : MainLoop V} (h : s.Labelled) (event : LoopEvent V) :
    (step L s event).Labelled := by
  intro key value hvalue
  have hvalue : (step L s event).runtime.detectLogs.value? key = some value := hvalue
  rw [(step_maps L s event).2] at hvalue
  rcases BoundedTtlMap.value?_apply hvalue with hold | ⟨now, walk, hrecord⟩
  · exact h key value hold
  · have hkey : recordedKey? (s.detectOp L event) = some key := by rw [hrecord]; rfl
    obtain ⟨⟨session, alive, detect, rfl⟩, -⟩ := detectOp_records L hkey
    rw [detectOp] at hrecord
    split at hrecord
    · cases hrecord
      rfl
    · cases hrecord

theorem detectLogs_lawful {s : MainLoop V} (h : s.Reporting) (hlabelled : s.Labelled)
    (event : LoopEvent V) : (detectLogs L).Lawful L s event := by
  refine ⟨(step_maps L s event).2, fun key hkey => detectOp_records L hkey, ?_⟩
  apply tells_of_posts L rfl
  intro request reply session alive detect hrequest hpath hack
  obtain ⟨items, rfl, hphase⟩ := phase_of_detectLogs hrequest hpath
  refine ⟨?_, ?_⟩
  · refine congrArg some ((PanelClient.readDetectLogs_items items).trans ?_)
    exact (h.detect items hphase).1.trans hlabelled.values_eq
  · have hop : s.detectOp L (.reply reply session alive detect) = .clear := by
      rw [detectOp, hphase]
      exact if_pos hack
    exact hop

/-! ### Whole runs -/

/-- What holds of the reports at every moment. -/
structure Observing (panel : PanelConfig) (s : MainLoop V) : Prop where
  panel_eq : s.panel = panel
  reporting : s.Reporting
  labelled : s.Labelled

theorem run_observing (config : Config) (panel : PanelConfig) (events : List (LoopEvent V)) :
    (after L config panel events).Observing panel := by
  have hstart : (start config panel : MainLoop V).Observing panel := by
    refine ⟨rfl, reporting_of_phase (by rintro _ ⟨⟩) (by rintro _ ⟨⟩), ?_⟩
    exact Reporter.run_labelled L.primitives L.fromUser config []
  apply Machine.run_keeps _ hstart
  intro s event h
  exact ⟨(step_noted L s event).1.trans h.panel_eq, step_reporting L h.reporting event,
    step_labelled L h.labelled event⟩

/-- The items that the relays emit in a run. -/
def emitted {κ ν ρ : Type} [BEq κ] [Hashable κ] (w : Watch V κ ν ρ) (events : List (LoopEvent V)) :
    List ρ :=
  events.filterMap w.emitted?

theorem run_account {κ ν ρ : Type} [BEq κ] [Hashable κ] [LawfulBEq κ] [DecidableEq ρ]
    {w : Watch V κ ν ρ} {config : Config} {panel : PanelConfig}
    (hlawful : ∀ events event, w.Lawful L (after L config panel events) event)
    {ttl capacity : Nat} (hstart : w.view (start config panel) = .new ttl capacity)
    (events : List (LoopEvent V)) :
    let s := after L config panel events
    (w.acknowledged s ++ (w.kept s ++ w.queued s)).Subperm (emitted w events) := by
  have hcount : ∀ r, (w.acknowledged (after L config panel events)).count r +
      (w.kept (after L config panel events)).count r +
      (w.queued (after L config panel events)).count r ≤ (emitted w events).count r := by
    intro r
    induction events using List.reverseRecOn with
    | nil =>
        have hnone : w.kept (after L config panel []) = [] := by
          rw [Watch.kept, after, Machine.run_nil, hstart, Watch.kept_new, List.map_nil]
        rw [hnone]
        exact Nat.le_refl 0
    | append_singleton events event ih =>
        have hstep := Watch.step_account (hlawful events event) r
        rw [emitted, List.filterMap_append, List.count_append, after, Machine.run_append]
        have hlast : ([event].filterMap w.emitted?) = (w.emitted? event).toList := by
          cases hitem : w.emitted? event <;> simp [hitem]
        rw [hlast]
        exact hstep.trans (Nat.add_le_add_right ih _)
  apply List.subperm_ext_iff.mpr
  intro r _
  rw [List.count_append, List.count_append]
  have h := hcount r
  omega

theorem aliveIps_account (config : Config) (panel : PanelConfig) (events : List (LoopEvent V)) :
    let s := after L config panel events
    ((aliveIps L).acknowledged s ++ ((aliveIps L).kept s ++ (aliveIps L).queued s)).Subperm
      (emitted (aliveIps L) events) :=
  run_account L (fun before => aliveIps_lawful L (run_observing L config panel before).reporting)
    rfl events

theorem detectLogs_account (config : Config) (panel : PanelConfig) (events : List (LoopEvent V)) :
    let s := after L config panel events
    ((detectLogs L).acknowledged s ++ ((detectLogs L).kept s ++ (detectLogs L).queued s)).Subperm
      (emitted (detectLogs L) events) := by
  refine run_account L (fun before => ?_) rfl events
  have hobserving := run_observing L config panel before
  exact detectLogs_lawful L hobserving.reporting hobserving.labelled

theorem aliveReport_injective : Function.Injective AliveIpKey.report := by
  rintro ⟨userId, ip⟩ ⟨userId', ip'⟩ heq
  cases heq
  rfl

/-- The alive IPs of a request that is waited for have been emitted. -/
theorem aliveIps_posted {config : Config} {panel : PanelConfig} {events : List (LoopEvent V)}
    {items : List AliveIpReport} (hphase : (after L config panel events).phase = .aliveIps items) :
    items ≠ [] ∧ items.Nodup ∧ items ⊆ emitted (aliveIps L) events := by
  obtain ⟨hkept, hne⟩ := (run_observing L config panel events).reporting.alive items hphase
  refine ⟨hne, ?_, ?_⟩
  · rw [hkept]
    exact Std.HashMap.nodup_keys.map aliveReport_injective
  · intro item hitem
    apply (aliveIps_account L config panel events).subset
    apply List.mem_append_right
    apply List.mem_append_left
    rw [hkept] at hitem
    exact hitem

theorem detectLogs_posted {config : Config} {panel : PanelConfig} {events : List (LoopEvent V)}
    {items : List DetectLogReport}
    (hphase : (after L config panel events).phase = .detectLogs items) :
    items ≠ [] ∧ items ⊆ emitted (detectLogs L) events := by
  have hobserving := run_observing L config panel events
  obtain ⟨hkept, hne⟩ := hobserving.reporting.detect items hphase
  refine ⟨hne, ?_⟩
  intro item hitem
  apply (detectLogs_account L config panel events).subset
  apply List.mem_append_right
  apply List.mem_append_left
  rw [hkept] at hitem
  have hvalues : (after L config panel events).runtime.detectLogs.values = _ :=
    hobserving.labelled.values_eq
  rw [hvalues] at hitem
  exact hitem

/-- Nothing is reported to the panel that no relay has observed, and nothing twice: the alive IPs
that the panel has acknowledged, those that are kept for the next report and those in the channel
are together no more than the connect events that were emitted, each for an event of its own, and
likewise for the detect logs. A POST, acknowledged or not, is never empty; the alive IPs of one are
all different; and every item of it has been emitted before. -/
theorem observations_accounted (config : Config) (panel : PanelConfig)
    (events : List (LoopEvent V)) :
    let s := after L config panel events
    ((aliveIps L).acknowledged s ++ ((aliveIps L).kept s ++ (aliveIps L).queued s)).Subperm
      (emitted (aliveIps L) events) ∧
    ((detectLogs L).acknowledged s ++ ((detectLogs L).kept s ++ (detectLogs L).queued s)).Subperm
      (emitted (detectLogs L) events) ∧
    (∀ exchange ∈ s.exchanges, exchange.1.path = "users/aliveip" →
      ∃ items, exchange.1 = PanelClient.reportAliveIps panel items ∧ items ≠ [] ∧ items.Nodup ∧
        items ⊆ emitted (aliveIps L) events) ∧
    ∀ exchange ∈ s.exchanges, exchange.1.path = "users/detectlog" →
      ∃ items, exchange.1 = PanelClient.reportDetectLogs panel items ∧ items ≠ [] ∧
        items ⊆ emitted (detectLogs L) events := by
  refine ⟨aliveIps_account L config panel events, detectLogs_account L config panel events, ?_, ?_⟩
  · intro exchange hmem hpath
    obtain ⟨before, _, _, _, later, rfl, hrequest⟩ := mem_exchanges L hmem
    obtain ⟨items, hitems, hphase⟩ := phase_of_aliveIps hrequest hpath
    rw [(run_observing L config panel before).panel_eq] at hitems
    obtain ⟨hne, hnodup, hemitted⟩ := aliveIps_posted L hphase
    refine ⟨items, hitems, hne, hnodup, ?_⟩
    intro item hitem
    rw [emitted, List.filterMap_append]
    exact List.mem_append_left _ (hemitted hitem)
  · intro exchange hmem hpath
    obtain ⟨before, _, _, _, later, rfl, hrequest⟩ := mem_exchanges L hmem
    obtain ⟨items, hitems, hphase⟩ := phase_of_detectLogs hrequest hpath
    rw [(run_observing L config panel before).panel_eq] at hitems
    obtain ⟨hne, hemitted⟩ := detectLogs_posted L hphase
    refine ⟨items, hitems, hne, ?_⟩
    intro item hitem
    rw [emitted, List.filterMap_append]
    exact List.mem_append_left _ (hemitted hitem)

end MainLoop

end SsrBackend
