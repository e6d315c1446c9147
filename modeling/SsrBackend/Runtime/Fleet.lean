import SsrBackend.Runtime.Backend

/-!
The listeners of the backend against the entries of the supervisor. The supervisor
sees nothing of a listener but that it has spawned it and told it to stop. Wherever it
waits for the panel or is in its `select!`, the listeners that it has not told to stop
are those of its entries, each in a place of its own, with the arguments of its entry
and the tables last published.
-/

namespace SsrBackend

/-- The arguments that the loop of a listener goes by. -/
inductive ListenerArgs where
  | tcp (cfg : TcpConfig)
  | udp (ctx : UdpContext)

namespace ListenerLoop

def args? : ListenerLoop → Option ListenerArgs
  | tcp cfg _ => some (.tcp cfg)
  | udp ctx _ => some (.udp ctx)
  | _ => none

/-- The tables that the next accept or datagram goes by. -/
def tables? : ListenerLoop → Option UserTables
  | tcp _ listener => some listener.tables
  | udp _ listener => some listener.tables
  | _ => none

end ListenerLoop

/-- The arguments that a spawn gives its listener. -/
def ListenerTask.args? (P : Primitives) (limits : RelayLimits) (task : ListenerTask) :
    Option ListenerArgs :=
  (ListenerLoop.opened P limits .empty task (.ok ())).args?

namespace Relay

variable {P : Primitives} {limits : RelayLimits}

/-- A listener in its loop goes by the arguments of its spawn and by the watched tables. -/
structure Serves (P : Primitives) (limits : RelayLimits) (tables : UserTables) (relay : Relay) :
    Prop where
  args : ∀ args, relay.loop.args? = some args → relay.task.args? P limits = some args
  tables : ∀ tables', relay.loop.tables? = some tables' → tables' = tables

theorem opened_serves (tables : UserTables) (task : ListenerTask) (result : Except String Unit)
    (stopping : Bool) :
    Serves P limits tables ⟨task, .opened P limits tables task result, stopping⟩ := by
  cases result with
  | error reason => exact ⟨by rintro _ ⟨⟩, by rintro _ ⟨⟩⟩
  | ok _ =>
      refine ⟨?_, ?_⟩ <;> simp only [ListenerTask.args?, ListenerLoop.opened] <;>
        cases (task.profile.cipherKind : Outcome String CipherKind) with
      | ok kind =>
          cases task.kind <;> rintro _ ⟨⟩ <;> rfl
      | err e => rintro _ ⟨⟩
      | panic => rintro _ ⟨⟩

theorem republish_serves {tables tables' : UserTables} {relay : Relay}
    (h : Serves P limits tables relay) :
    Serves P limits tables' { relay with loop := relay.loop.republish P tables' } := by
  obtain ⟨task, loop, stopping⟩ := relay
  cases loop with
  | binding => exact ⟨h.args, by rintro _ ⟨⟩⟩
  | tcp cfg listener =>
      refine ⟨h.args, ?_⟩
      rintro _ ⟨⟩
      rfl
  | udp ctx listener =>
      refine ⟨h.args, ?_⟩
      rintro _ ⟨⟩
      rfl
  | failed => exact ⟨h.args, by rintro _ ⟨⟩⟩

variable (P limits) in
/-- What a step of a listener is to its loop. -/
theorem step_loop (tables : UserTables) (rules : RuleSet) (relay : Relay) (input : RelayInput) :
    let next := relay.step P limits tables rules input
    next.loop = relay.loop ∨
    (∃ result, relay.loop = .binding ∧ next.loop = .opened P limits tables relay.task result) ∨
    (∃ cfg listener event, relay.loop = .tcp cfg listener ∧ (∀ other, event ≠ .republish other) ∧
      next.loop = .tcp cfg (listener.step P cfg event)) ∨
    (∃ ctx listener event, relay.loop = .udp ctx listener ∧ (∀ other, event ≠ .republish other) ∧
      next.loop = .udp ctx (listener.step P ctx event)) := by
  obtain ⟨task, loop, stopping⟩ := relay
  cases input with
  | bound result =>
      cases loop with
      | binding => exact Or.inr (Or.inl ⟨result, rfl, rfl⟩)
      | _ => exact Or.inl rfl
  | tcp event =>
      cases hwatched : event.watched rules with
      | none => exact Or.inl (by simp only [step, hwatched])
      | some event' =>
          simp only [step, hwatched]
          cases loop with
          | tcp cfg listener =>
              exact Or.inr (Or.inr (Or.inl
                ⟨cfg, listener, event', rfl, TcpEvent.watched_outside hwatched, rfl⟩))
          | _ => exact Or.inl rfl
  | udp event =>
      cases hwatched : event.watched rules with
      | none => exact Or.inl (by simp only [step, hwatched])
      | some event' =>
          simp only [step, hwatched]
          cases loop with
          | udp ctx listener =>
              exact Or.inr (Or.inr (Or.inr
                ⟨ctx, listener, event', rfl, UdpEvent.watched_outside hwatched, rfl⟩))
          | _ => exact Or.inl rfl
  | receiveFailed reason =>
      cases loop with
      | udp ctx listener =>
          exact Or.inr (Or.inr (Or.inr ⟨ctx, listener, .stop, rfl, by rintro _ ⟨⟩, rfl⟩))
      | _ => exact Or.inl rfl
  | stopped =>
      rw [step]
      split
      · cases loop with
        | binding => exact Or.inl rfl
        | tcp cfg listener =>
            exact Or.inr (Or.inr (Or.inl ⟨cfg, listener, .stop, rfl, by rintro _ ⟨⟩, rfl⟩))
        | udp ctx listener =>
            exact Or.inr (Or.inr (Or.inr ⟨ctx, listener, .stop, rfl, by rintro _ ⟨⟩, rfl⟩))
        | failed => exact Or.inl rfl
      · exact Or.inl rfl

variable (P limits) in
theorem step_task (tables : UserTables) (rules : RuleSet) (relay : Relay) (input : RelayInput) :
    (relay.step P limits tables rules input).task = relay.task ∧
      (relay.step P limits tables rules input).stopping = relay.stopping := by
  cases input with
  | stopped =>
      rw [step]
      split <;> exact ⟨rfl, rfl⟩
  | _ =>
      simp only [step]
      split <;> exact ⟨rfl, rfl⟩

/-- The steps of a listener change neither its arguments nor the tables it watches. -/
theorem step_serves {tables : UserTables} {relay : Relay} (h : Serves P limits tables relay)
    (rules : RuleSet) (input : RelayInput) :
    Serves P limits tables (relay.step P limits tables rules input) := by
  have hnext : relay.step P limits tables rules input =
      ⟨relay.task, (relay.step P limits tables rules input).loop, relay.stopping⟩ := by
    obtain ⟨htask, hstopping⟩ := step_task P limits tables rules relay input
    rw [← htask, ← hstopping]
  rw [hnext]
  rcases step_loop P limits tables rules relay input with
    hsame | ⟨result, -, hopened⟩ | ⟨cfg, listener, event, hloop, hevent, htcp⟩ |
    ⟨ctx, listener, event, hloop, hevent, hudp⟩
  · rw [hsame]
    exact ⟨h.args, h.tables⟩
  · rw [hopened]
    exact opened_serves tables relay.task result relay.stopping
  · rw [htcp]
    refine ⟨fun args hargs => h.args args (hloop ▸ hargs), ?_⟩
    rintro _ ⟨⟩
    rw [TcpListener.step_tables hevent]
    exact h.tables _ (hloop ▸ rfl)
  · rw [hudp]
    refine ⟨fun args hargs => h.args args (hloop ▸ hargs), ?_⟩
    rintro _ ⟨⟩
    have hkeeps : UdpListener.Keeps (fun _ => True) listener (listener.step P ctx event) :=
      UdpListener.step_keeps ⟨fun _ _ _ => trivial, fun _ _ _ => trivial⟩ hevent
    rw [hkeeps.tables_eq]
    exact h.tables _ (hloop ▸ rfl)

end Relay

/-! ### The listeners and the log of the supervisor -/

/-- What the supervisor knows of a listener. -/
def Relay.mark (relay : Relay) : ListenerTask × Bool := (relay.task, relay.stopping)

namespace Backend

/-- The roster of the log and the listeners: those not told to stop are at work, in the order of
their numbers, which are all used. -/
structure Manned (relays : List Relay) (r : Roster ListenerTask) : Prop where
  working_eq : r.working = (relays.filter fun relay => !relay.stopping).map Relay.task
  next_eq : r.next = relays.length
  numbers : (relays.map fun relay => relay.task.id) = List.range relays.length

variable {relays : List Relay} {r r' : Roster ListenerTask}

theorem Manned.of_marks (h : Manned relays r) {relays' : List Relay}
    (hmarks : relays'.map Relay.mark = relays.map Relay.mark) : Manned relays' r := by
  have hworking : ∀ xs : List Relay, (xs.filter fun relay => !relay.stopping).map Relay.task =
      ((xs.map Relay.mark).filter fun mark => !mark.2).map Prod.fst := by
    intro xs
    rw [List.filter_map, List.map_map]
    rfl
  have hnumbers : ∀ xs : List Relay, (xs.map fun relay => relay.task.id) =
      (xs.map Relay.mark).map fun mark => mark.1.id := by
    intro xs
    rw [List.map_map]
    rfl
  have hlength : relays'.length = relays.length := by
    simpa using congrArg List.length hmarks
  refine ⟨?_, ?_, ?_⟩
  · rw [h.working_eq, hworking, hworking, hmarks]
  · rw [h.next_eq, hlength]
  · rw [hnumbers, hmarks, ← hnumbers, h.numbers, hlength]

/-- A number is the one of a single listener. -/
theorem Manned.task_eq (h : Manned relays r) {relay other : Relay} (hrelay : relay ∈ relays)
    (hother : other ∈ relays) (hid : relay.task.id = other.task.id) : relay = other := by
  have hnodup : (relays.map fun relay => relay.task.id).Nodup := by
    rw [h.numbers]
    exact List.nodup_range
  exact List.inj_on_of_nodup_map hnodup hrelay hother hid

theorem Manned.mem_working (h : Manned relays r) {task : ListenerTask} :
    task ∈ r.working ↔ ∃ relay ∈ relays, relay.task = task ∧ relay.stopping = false := by
  rw [h.working_eq]
  simp only [List.mem_map, List.mem_filter, Bool.not_eq_true']
  grind

theorem Manned.nodup (h : Manned relays r) : r.working.Nodup := by
  have hnodup : (relays.map fun relay => relay.task.id).Nodup := by
    rw [h.numbers]
    exact List.nodup_range
  rw [h.working_eq]
  apply List.Nodup.of_map ListenerTask.id
  rw [List.map_map]
  exact hnodup.sublist (List.filter_sublist.map _)

/-- A spawn or a stop that the log can note is one of the listeners. -/
theorem manage_manned (h : Manned relays r) {action : ListenerAction}
    (hnote : Roster.note ListenerTask.place ListenerTask.id r action.note = some r') :
    Manned (manage relays action) r' := by
  cases action with
  | spawn task =>
      rw [ListenerAction.note, Roster.note] at hnote
      split at hnote
      · rename_i hfree
        cases hnote
        refine ⟨?_, ?_, ?_⟩
        · simp [manage, h.working_eq]
        · simp [manage, h.next_eq]
        · simp [manage, h.numbers, hfree.1, h.next_eq, List.range_succ]
      · cases hnote
  | stop port task =>
      rw [ListenerAction.note, Roster.note] at hnote
      split at hnote
      · rename_i hmem
        cases hnote
        have hone : ∀ relay ∈ relays, relay.task.id = task.id ↔ relay.task = task := by
          intro relay hrelay
          refine ⟨?_, fun heq => congrArg ListenerTask.id heq⟩
          intro hid
          rw [h.working_eq] at hmem
          obtain ⟨other, hother, rfl⟩ := List.mem_map.mp hmem
          rw [h.task_eq hrelay (List.mem_filter.mp hother).1 hid]
        refine ⟨?_, ?_, ?_⟩
        · dsimp only
          rw [h.nodup.erase_eq_filter, h.working_eq, manage, List.filter_map, List.filter_map,
            List.map_map, List.filter_filter]
          have htask : (Relay.task ∘ fun relay : Relay =>
              if relay.task.id = task.id then { relay with stopping := true } else relay) =
              Relay.task := by
            funext relay
            by_cases hid : relay.task.id = task.id <;> simp [hid]
          rw [htask]
          congr 1
          apply List.filter_congr
          intro relay hrelay
          by_cases hid : relay.task.id = task.id
          · simp [(hone relay hrelay).mp hid]
          · have hne : relay.task ≠ task := fun heq => hid (congrArg ListenerTask.id heq)
            simp [hid, hne]
        · simp [manage, h.next_eq]
        · have hids : ((fun relay : Relay => relay.task.id) ∘ fun relay : Relay =>
              if relay.task.id = task.id then { relay with stopping := true } else relay) =
              fun relay => relay.task.id := by
            funext relay
            by_cases hid : relay.task.id = task.id <;> simp [hid]
          rw [manage, List.map_map, hids, List.length_map]
          exact h.numbers
      · cases hnote

theorem manageAll_manned (h : Manned relays r) {actions : List ListenerAction}
    (hread : Machine.tryRun (Roster.note ListenerTask.place ListenerTask.id) r
      (actions.map ListenerAction.note) = some r') :
    Manned (actions.foldl manage relays) r' := by
  induction actions generalizing relays r with
  | nil =>
      cases hread
      exact h
  | cons action actions ih =>
      rw [List.map_cons, Machine.tryRun] at hread
      obtain ⟨next, hnote, hrest⟩ := Option.bind_eq_some_iff.mp hread
      exact ih (manage_manned h hnote) hrest

end Backend

/-- A step of the loop only adds to its log of spawns and stops. -/
theorem MainLoop.step_actions {V : Type} (L : Libraries V) (s : MainLoop V) (event : LoopEvent V) :
    ∃ extra, (step L s event).runtime.actions = s.runtime.actions ++ extra := by
  rcases step_moved L s event with ⟨-, hmoved⟩ | ⟨answer, -, hmoved⟩ | ⟨-, -, heq⟩
  · exact ⟨[], by rw [hmoved.sameListeners.actions_eq, List.append_nil]⟩
  · rw [hmoved.sameListeners.actions_eq]
    rcases BackendRuntime.synced_cases L.primitives L.fromUser answer s.runtime with
      hsame | ⟨users, -, happly⟩
    · exact ⟨[], by rw [hsame, List.append_nil]⟩
    · obtain ⟨extra, hextra, -⟩ :=
        (BackendRuntime.applyUsers_touches L.primitives L.fromUser users s.runtime).actions_eq
      exact ⟨extra, by rw [happly, hextra]⟩
  · rw [heq]
    exact ⟨_, rfl⟩

/-! ### Runs -/

namespace Backend

variable {V : Type} {L : Libraries V} {limits : RelayLimits} {config : Config}
  {panel : PanelConfig}

variable (L limits) in
/-- The listeners are those of the log, and serve what was last published. -/
structure Staffed (b : Backend V) : Prop where
  manned : ∃ r, roster b.loop.runtime.actions = some r ∧ Manned b.relays r
  serves : ∀ relay ∈ b.relays, relay.Serves L.primitives limits b.loop.runtime.tables

theorem supervise_staffed {b : Backend V} (htied : Tied L config panel b)
    (h : Staffed L limits b) {event : LoopEvent V} (hown : event.own = true) :
    Staffed L limits (b.supervise L event) := by
  obtain ⟨r, hread, hmanned⟩ := h.manned
  obtain ⟨extra, hactions⟩ := MainLoop.step_actions L b.loop event
  have htended : (b.supervise L event).loop.Tended := by
    rw [(supervise_tied htied hown).loop_eq]
    exact MainLoop.run_tended L config panel _
  obtain ⟨working, hworking⟩ := htended.managed
  have hroster := hworking.roster_eq
  have hextra : Machine.tryRun (Roster.note ListenerTask.place ListenerTask.id) r
      (extra.map ListenerAction.note) =
        some ⟨working, (b.supervise L event).loop.runtime.nextTask⟩ := by
    change roster (MainLoop.step L b.loop event).runtime.actions = _ at hroster
    rw [hactions, roster, List.map_append, Roster.read_append] at hroster
    rw [roster] at hread
    rw [hread, Option.bind_some] at hroster
    exact hroster
  have hdrop : (MainLoop.step L b.loop event).runtime.actions.drop
      b.loop.runtime.actions.length = extra := by
    rw [hactions, List.drop_left]
  refine ⟨⟨_, hroster, ?_⟩, ?_⟩
  · rw [supervise]
    dsimp only
    rw [hdrop]
    apply manageAll_manned _ hextra
    apply hmanned.of_marks
    rw [List.map_map]
    rfl
  · refine supervise_relays (fun _ => ⟨by rintro _ ⟨⟩, by rintro _ ⟨⟩⟩)
      (fun _ hserves => ⟨hserves.args, hserves.tables⟩) ?_
    intro old hold
    exact Relay.republish_serves (h.serves old hold)

theorem relayStep_staffed {b : Backend V} (htied : Tied L config panel b)
    (h : Staffed L limits b) (i : Nat) (input : RelayInput) :
    Staffed L limits (b.relayStep L limits i input) := by
  rw [relayStep]
  cases hrelay : b.relays[i]? with
  | none => exact h
  | some relay =>
      have hmem := List.mem_of_getElem? hrelay
      have htakes := (htied.relay_takes limits hmem input).2
      obtain ⟨r, hread, hmanned⟩ := h.manned
      refine ⟨⟨r, ?_, ?_⟩, ?_⟩
      · dsimp only
        rw [htakes.actions_eq]
        exact hread
      · apply hmanned.of_marks
        obtain ⟨htask, hstopping⟩ := Relay.step_task L.primitives limits b.loop.runtime.tables
          b.loop.rules relay input
        obtain ⟨hlt, hget⟩ := List.getElem?_eq_some_iff.mp hrelay
        have hlt' : i < (b.relays.map Relay.mark).length := by simpa
        have hsame : (relay.task, relay.stopping) = (b.relays.map Relay.mark)[i] := by
          rw [List.getElem_map, hget]
          rfl
        dsimp only
        rw [List.map_set, Relay.mark, htask, hstopping, hsame, List.set_getElem_self]
      · dsimp only
        rw [htakes.tables_eq]
        intro other hother
        cases List.mem_or_eq_of_mem_set hother with
        | inl hold => exact h.serves other hold
        | inr hnew =>
            rw [hnew]
            exact Relay.step_serves (h.serves relay hmem) b.loop.rules input

variable (L limits config panel) in
theorem run_staffed (events : List (BackendEvent V)) :
    Staffed L limits (after L limits config panel events) := by
  induction events using List.reverseRecOn with
  | nil => exact ⟨⟨⟨[], 0⟩, rfl, rfl, rfl, rfl⟩, List.forall_mem_nil _⟩
  | append_singleton events event ih =>
      have htied := run_tied L limits config panel events
      rw [after, Machine.run_append, Machine.run_cons, Machine.run_nil]
      rw [after] at ih htied
      cases event with
      | supervisor event =>
          rw [step]
          split
          · exact supervise_staffed htied ih ‹_›
          · exact ih
      | relay i input => exact relayStep_staffed htied ih i input

variable (L limits config panel) in
/-- The listeners at work are those of the entries, and have not been told to stop. -/
theorem run_workers (events : List (BackendEvent V)) :
    let b := after L limits config panel events
    ∃ working, b.loop.runtime.Managed working ∧
      Manned b.relays ⟨working, b.loop.runtime.nextTask⟩ := by
  intro b
  have htended : b.loop.Tended := by
    rw [(run_tied L limits config panel events).loop_eq]
    exact MainLoop.run_tended L config panel b.trace
  obtain ⟨r, hread, hmanned⟩ := (run_staffed L limits config panel events).manned
  obtain ⟨working, hworking⟩ := htended.managed
  have hr : r = ⟨working, b.loop.runtime.nextTask⟩ :=
    Option.some.inj (hread.symm.trans hworking.roster_eq)
  exact ⟨working, hworking, hr ▸ hmanned⟩

variable (L limits) in
/-- In every run, wherever the supervisor waits for the panel or is in its `select!`, the listeners
that have not been told to stop are those of its entries, one in a place; every listener in its
loop goes by the arguments that it was spawned with and reads the tables that were last published;
and all have been told to stop once the supervisor has returned. The stops that a poll or the end
of the run awaits are part of its step. -/
theorem listeners_follow_supervisor (config : Config) (panel : PanelConfig)
    (events : List (BackendEvent V)) :
    let b := after L limits config panel events
    (∀ task, (∃ relay ∈ b.relays, relay.task = task ∧ relay.stopping = false) ↔
      ∃ (port : UInt16) (active : ActiveUser),
        b.loop.runtime.activeUsers[port]? = some active ∧ task ∈ active.tasks) ∧
    ((b.relays.filter fun relay => !relay.stopping).map fun relay => relay.task.place).Nodup ∧
    (∀ relay ∈ b.relays,
      (∀ args, relay.loop.args? = some args → relay.task.args? L.primitives limits = some args) ∧
      ∀ tables, relay.loop.tables? = some tables → tables = b.loop.runtime.tables) ∧
    (b.loop.phase = .returned (.ok ()) → ∀ relay ∈ b.relays, relay.stopping = true) := by
  intro b
  have hserves := (run_staffed L limits config panel events).serves
  obtain ⟨working, hworking, hmanned⟩ := run_workers L limits config panel events
  refine ⟨?_, ?_, ?_, ?_⟩
  · intro task
    rw [← hworking.mem_iff task]
    exact hmanned.mem_working.symm
  · have hplaces := (Roster.read_orderly hworking.roster_eq).places
    rw [hmanned.working_eq, List.map_map] at hplaces
    exact hplaces
  · intro relay hrelay
    exact ⟨(hserves relay hrelay).args, (hserves relay hrelay).tables⟩
  · intro hdone relay hrelay
    have hstopped : b.loop.runtime.Managed [] := by
      have hloop := (run_tied L limits config panel events).loop_eq
      have htended := MainLoop.run_tended L config panel b.trace
      rw [← hloop] at htended
      exact htended.done hdone
    have hnone : working = [] := by
      have hroster := hworking.roster_eq
      rw [hstopped.roster_eq] at hroster
      exact (congrArg Roster.working (Option.some.inj hroster)).symm
    cases hstopping : relay.stopping with
    | true => rfl
    | false =>
        have hwork := hmanned.mem_working.mpr ⟨relay, hrelay, rfl, hstopping⟩
        rw [hnone] at hwork
        cases hwork

end Backend

end SsrBackend
