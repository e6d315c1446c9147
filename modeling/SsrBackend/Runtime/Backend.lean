import SsrBackend.Relay.Outputs
import SsrBackend.Runtime.Billing
import SsrBackend.Runtime.Lifecycle
import SsrBackend.Runtime.Observations

/-!
The whole backend: the supervisor's loop and every listener that it has spawned, with
the sessions and associations of each, one step at a time in any order. The listeners
read the tables and the rules of the loop's watches; what they record and emit goes to
the counters and the channel of the loop. A listener that is told to stop may still
finish what it is at, and the sessions that it has accepted go on. A poll with the
stops that it awaits is one step of the supervisor. What the sets of the device limit
say comes with the events.
-/

namespace SsrBackend

/-- The limits that the listeners are spawned with. -/
structure RelayLimits where
  maxAcceptsPerPort : Nat
  udpAssociationTtl : Nat
  maxUdpAssociations : Nat

/-- Where the task of a listener is: at its bind, in its loop, or ended before it. -/
inductive ListenerLoop where
  | binding
  | tcp (cfg : TcpConfig) (listener : TcpListener)
  | udp (ctx : UdpContext) (listener : UdpListener)
  | failed

/-- A spawned listener; `stopping` once its stop channel has been sent to. -/
structure Relay where
  task : ListenerTask
  loop : ListenerLoop
  stopping : Bool

/-- The return of the bind, what the sockets and clocks deliver, a failed receive of the UDP
socket, and the arm of the stop channel. -/
inductive RelayInput where
  | bound (result : Except String Unit)
  | tcp (event : TcpEvent)
  | udp (event : UdpEvent)
  | receiveFailed (reason : String)
  | stopped

/-- An event that comes from outside, with the rules that the watch has. -/
def TcpEvent.watched (rules : RuleSet) : TcpEvent → Option TcpEvent
  | republish _ => none
  | stop => none
  | task i (.stream (.clientRead chunk world write)) =>
      some (.task i (.stream (.clientRead chunk { world with rules := rules } write)))
  | event => some event

def UdpEvent.watched (rules : RuleSet) : UdpEvent → Option UdpEvent
  | republish _ => none
  | stop => none
  | datagram inbound => some (.datagram { inbound with rules := rules })
  | event => some event

namespace ListenerLoop

variable (P : Primitives)

/-- `run_listener` from its bind to its loop; `cipher_kind` panics on an unsupported method. -/
def opened (limits : RelayLimits) (tables : UserTables) (task : ListenerTask) :
    Except String Unit → ListenerLoop
  | .error _ => .failed
  | .ok () =>
      match (task.profile.cipherKind : Outcome String CipherKind) with
      | .ok kind =>
          match task.kind with
          | .tcp =>
              let cfg : TcpConfig := ⟨task.userId, task.password, task.enforcement,
                task.isMultiUser, limits.maxAcceptsPerPort, kind⟩
              .tcp cfg (TcpListener.start cfg tables (.ok ()))
          | .udp => .udp ⟨task.userId, deriveMasterKey P task.password kind, task.enforcement,
              task.isMultiUser, kind⟩
              (UdpListener.start tables limits.udpAssociationTtl limits.maxUdpAssociations)
      | _ => .failed

def republish (tables : UserTables) : ListenerLoop → ListenerLoop
  | tcp cfg listener => .tcp cfg (listener.step P cfg (.republish tables))
  | udp ctx listener => .udp ctx (listener.step P ctx (.republish tables))
  | loop => loop

def stop : ListenerLoop → ListenerLoop
  | tcp cfg listener => .tcp cfg (listener.step P cfg .stop)
  | udp ctx listener => .udp ctx (listener.step P ctx .stop)
  | loop => loop

end ListenerLoop

namespace Relay

variable (P : Primitives)

def step (limits : RelayLimits) (tables : UserTables) (rules : RuleSet) (relay : Relay) :
    RelayInput → Relay
  | .bound result =>
      match relay.loop with
      | .binding => { relay with loop := .opened P limits tables relay.task result }
      | _ => relay
  | .tcp event =>
      match relay.loop, event.watched rules with
      | .tcp cfg listener, some event => { relay with loop := .tcp cfg (listener.step P cfg event) }
      | _, _ => relay
  | .udp event =>
      match relay.loop, event.watched rules with
      | .udp ctx listener, some event => { relay with loop := .udp ctx (listener.step P ctx event) }
      | _, _ => relay
  | .receiveFailed _ =>
      match relay.loop with
      | .udp ctx listener => { relay with loop := .udp ctx listener.close }
      | _ => relay
  | .stopped => if relay.stopping then { relay with loop := relay.loop.stop P } else relay

/-- What the step does to the counters and the channel. -/
def outputs (rules : RuleSet) (relay : Relay) : RelayInput → List RelayOutput
  | .tcp event =>
      match relay.loop, event.watched rules with
      | .tcp _ listener, some event => listener.outputs P event
      | _, _ => []
  | .udp event =>
      match relay.loop, event.watched rules with
      | .udp ctx listener, some event => listener.outputs P ctx event
      | _, _ => []
  | _ => []

end Relay

namespace MainLoop

variable {V : Type}

/-- A snapshot and a user of it that a counter is found under. -/
def locate (s : MainLoop V) (counters : Handle) : Option (Nat × Nat) :=
  s.published.zipIdx.findSome? fun snapshot =>
    (snapshot.1.countersByUser.toList.find? fun entry => entry.2 = counters).map fun entry =>
      (snapshot.2, entry.1)

/-- What an output of a relay is to the loop. -/
def delivered (s : MainLoop V) : RelayOutput → Option (LoopEvent V)
  | .record counters direction bytes =>
      (s.locate counters).map fun place => .record place.1 place.2 direction bytes
  | .emit event => some (.emit event)

end MainLoop

/-- The events of the supervisor's own task. -/
def LoopEvent.own {V : Type} : LoopEvent V → Bool
  | emit _ => false
  | record .. => false
  | _ => true

/-- The loop and the listeners that it has spawned, in the order of their numbers; the outputs of
the listeners so far and what the loop has been through. -/
structure Backend (V : Type) where
  loop : MainLoop V
  relays : List Relay
  outputs : List (Nat × RelayOutput)
  trace : List (LoopEvent V)

inductive BackendEvent (V : Type) where
  | supervisor (event : LoopEvent V)
  | relay (i : Nat) (input : RelayInput)

namespace Backend

variable {V : Type} (L : Libraries V) (limits : RelayLimits)

def start (config : Config) (panel : PanelConfig) : Backend V := ⟨.start config panel, [], [], []⟩

/-- A spawn or a stop of the supervisor. -/
def manage (relays : List Relay) : ListenerAction → List Relay
  | .spawn task => relays ++ [⟨task, .binding, false⟩]
  | .stop _ task => relays.map fun relay =>
      if relay.task.id = task.id then { relay with stopping := true } else relay

/-- A step of the supervisor's task: the tables it publishes, its spawns and its stops, those that
a poll or the end of the run awaits among them. -/
def supervise (b : Backend V) (event : LoopEvent V) : Backend V :=
  let loop := MainLoop.step L b.loop event
  let watching := b.relays.map fun relay =>
    { relay with loop := relay.loop.republish L.primitives loop.runtime.tables }
  { b with
    loop := loop
    relays := (loop.runtime.actions.drop b.loop.runtime.actions.length).foldl manage watching
    trace := b.trace ++ [event] }

/-- A step of a listener or of one of its sessions. -/
def relayStep (b : Backend V) (i : Nat) (input : RelayInput) : Backend V :=
  match b.relays[i]? with
  | none => b
  | some relay =>
      let outputs := relay.outputs L.primitives b.loop.rules input
      let events := outputs.filterMap b.loop.delivered
      { loop := Machine.run (MainLoop.step L) b.loop events
        relays := b.relays.set i
          (relay.step L.primitives limits b.loop.runtime.tables b.loop.rules input)
        outputs := b.outputs ++ outputs.map fun output => (i, output)
        trace := b.trace ++ events }

def step (b : Backend V) : BackendEvent V → Backend V
  | .supervisor event => if event.own then b.supervise L event else b
  | .relay i input => b.relayStep L limits i input

/-- The backend after some events. -/
def after (config : Config) (panel : PanelConfig) (events : List (BackendEvent V)) : Backend V :=
  Machine.run (step L limits) (start config panel) events

end Backend

/-! ### The counters of the listeners -/

theorem UserTables.Within.mono {known known' : Handle → Prop} {tables : UserTables}
    (h : tables.Within known) (himp : ∀ counters, known counters → known' counters) :
    tables.Within known' :=
  fun u counters hentry => himp counters (h u counters hentry)

theorem TcpListener.Within.mono {known known' : Handle → Prop} {l : TcpListener}
    (h : l.Within known) (himp : ∀ counters, known counters → known' counters) :
    l.Within known' :=
  ⟨h.tables.mono himp, fun session hmem =>
    ⟨(h.sessions session hmem).tables.mono himp, (h.sessions session hmem).phase⟩⟩

theorem UdpListener.Within.mono {known known' : Handle → Prop} {l : UdpListener}
    (h : l.Within known) (himp : ∀ counters, known counters → known' counters) :
    l.Within known' :=
  ⟨h.tables.mono himp, fun key association hfound => himp _ (h.associations key association hfound)⟩

namespace ListenerLoop

variable {P : Primitives} {known known' : Handle → Prop}

def Within (known : Handle → Prop) : ListenerLoop → Prop
  | binding => True
  | tcp _ listener => listener.Within known
  | udp _ listener => listener.Within known
  | failed => True

theorem Within.mono {loop : ListenerLoop} (h : loop.Within known)
    (himp : ∀ counters, known counters → known' counters) : loop.Within known' := by
  cases loop with
  | binding => trivial
  | tcp cfg listener => exact TcpListener.Within.mono h himp
  | udp ctx listener => exact UdpListener.Within.mono h himp
  | failed => trivial

theorem opened_within {limits : RelayLimits} {tables : UserTables} (htables : tables.Within known)
    (task : ListenerTask) (result : Except String Unit) :
    (opened P limits tables task result).Within known := by
  cases result with
  | error reason => trivial
  | ok _ =>
      rw [opened]
      cases (task.profile.cipherKind : Outcome String CipherKind) with
      | ok kind =>
          cases task.kind with
          | tcp => exact ⟨htables, List.forall_mem_nil _⟩
          | udp =>
              refine ⟨htables, ?_⟩
              intro key association hfound
              simp [UdpListener.start, BoundedTtlMap.value?, BoundedTtlMap.new] at hfound
      | err e => trivial
      | panic => trivial

theorem republish_within {loop : ListenerLoop} (h : loop.Within known) {tables : UserTables}
    (htables : tables.Within known) : (loop.republish P tables).Within known := by
  have hevent : ∀ other, tables = other → other.Within known := by
    rintro _ rfl
    exact htables
  cases loop with
  | binding => trivial
  | tcp cfg listener =>
      exact (TcpListener.step_within h fun other heq =>
        hevent other (TcpEvent.republish.inj heq)).1
  | udp ctx listener =>
      exact (UdpListener.step_within h fun other heq =>
        hevent other (UdpEvent.republish.inj heq)).1
  | failed => trivial

theorem stop_within {loop : ListenerLoop} (h : loop.Within known) :
    (loop.stop P).Within known := by
  cases loop with
  | binding => trivial
  | tcp cfg listener => exact (TcpListener.step_within h (by rintro _ ⟨⟩)).1
  | udp ctx listener => exact (UdpListener.step_within h (by rintro _ ⟨⟩)).1
  | failed => trivial

end ListenerLoop

theorem TcpEvent.watched_outside {rules : RuleSet} {event event' : TcpEvent}
    (h : event.watched rules = some event') (tables : UserTables) : event' ≠ .republish tables := by
  unfold watched at h
  split at h <;> cases h
  · rintro ⟨⟩
  · rename_i hrepublish _ _
    exact fun heq => hrepublish tables heq

theorem UdpEvent.watched_outside {rules : RuleSet} {event event' : UdpEvent}
    (h : event.watched rules = some event') (tables : UserTables) : event' ≠ .republish tables := by
  unfold watched at h
  split at h <;> cases h
  · rintro ⟨⟩
  · rename_i hrepublish _ _
    exact fun heq => hrepublish tables heq

namespace Relay

variable {P : Primitives} {known : Handle → Prop}

/-- A listener goes on with known counters, and records on no other. -/
theorem step_within {limits : RelayLimits} {tables : UserTables} {rules : RuleSet} {relay : Relay}
    (h : relay.loop.Within known) (htables : tables.Within known) (input : RelayInput) :
    (relay.step P limits tables rules input).loop.Within known ∧
      ∀ output ∈ relay.outputs P rules input, output.Within known := by
  obtain ⟨task, loop, stopping⟩ := relay
  cases input with
  | bound result =>
      refine ⟨?_, List.forall_mem_nil _⟩
      cases loop with
      | binding => exact ListenerLoop.opened_within htables task result
      | _ => exact h
  | tcp event =>
      cases hwatched : event.watched rules with
      | none =>
          simp only [step, outputs, hwatched]
          exact ⟨h, List.forall_mem_nil _⟩
      | some event' =>
          simp only [step, outputs, hwatched]
          cases loop with
          | tcp cfg listener =>
              apply TcpListener.step_within h
              intro other heq
              exact absurd heq (TcpEvent.watched_outside hwatched other)
          | _ => exact ⟨h, List.forall_mem_nil _⟩
  | udp event =>
      cases hwatched : event.watched rules with
      | none =>
          simp only [step, outputs, hwatched]
          exact ⟨h, List.forall_mem_nil _⟩
      | some event' =>
          simp only [step, outputs, hwatched]
          cases loop with
          | udp ctx listener =>
              apply UdpListener.step_within h
              intro other heq
              exact absurd heq (UdpEvent.watched_outside hwatched other)
          | _ => exact ⟨h, List.forall_mem_nil _⟩
  | receiveFailed reason =>
      refine ⟨?_, List.forall_mem_nil _⟩
      cases loop with
      | udp ctx listener =>
          change ((ListenerLoop.udp ctx listener).stop P).Within known
          exact ListenerLoop.stop_within h
      | _ => exact h
  | stopped =>
      refine ⟨?_, List.forall_mem_nil _⟩
      rw [step]
      split
      · exact ListenerLoop.stop_within h
      · exact h

end Relay

/-! ### What the relays do to the loop -/

/-- A record that a relay has made: the counter, the direction and the bytes. -/
def RelayOutput.recording? : RelayOutput → Option (Handle × Direction × Nat)
  | record counters direction bytes => some (counters, direction, bytes)
  | emit _ => none

def RelayOutput.emission? : RelayOutput → Option RelayEvent
  | record .. => none
  | emit event => some event

def LoopEvent.emission? {V : Type} : LoopEvent V → Option RelayEvent
  | emit event => some event
  | _ => none

def Record.recording (r : Record) : Handle × Direction × Nat := (r.handle, r.direction, r.bytes)

namespace MainLoop

variable {V : Type} {L : Libraries V}

/-- A snapshot has the counter for the user. -/
def publishes (s : MainLoop V) (u : Nat) (counters : Handle) : Bool :=
  s.published.any fun tables => tables.countersByUser[u]? = some counters

theorem publishes_iff {s : MainLoop V} {u : Nat} {counters : Handle} :
    s.publishes u counters = true ↔
      ∃ tables ∈ s.published, tables.countersByUser[u]? = some counters := by
  simp [publishes]

def Knows (s : MainLoop V) (counters : Handle) : Prop := ∃ u, s.publishes u counters = true

theorem publishes_mono {s t : MainLoop V} (h : s.published <+: t.published) {u : Nat}
    {counters : Handle} (hs : s.publishes u counters = true) : t.publishes u counters = true := by
  obtain ⟨tables, hmem, hentry⟩ := publishes_iff.mp hs
  exact publishes_iff.mpr ⟨tables, h.subset hmem, hentry⟩

theorem within_of_published {s : MainLoop V} {tables : UserTables} (h : tables ∈ s.published) :
    tables.Within s.Knows :=
  fun u _ hentry => ⟨u, publishes_iff.mpr ⟨tables, h, hentry⟩⟩

theorem locate_eq_some {s : MainLoop V} {counters : Handle} {place : Nat × Nat}
    (h : s.locate counters = some place) :
    (s.published[place.1]?.bind fun tables => tables.countersByUser[place.2]?) = some counters := by
  obtain ⟨snapshot, hsnapshot, hfind⟩ := List.exists_of_findSome?_eq_some h
  obtain ⟨entry, hentry, rfl⟩ := Option.map_eq_some_iff.mp hfind
  have hcounters : entry.2 = counters := by simpa using List.find?_some hentry
  have hmem := Std.HashMap.mem_toList_iff_getElem?_eq_some.mp (List.mem_of_find?_eq_some hentry)
  rw [List.mem_zipIdx_iff_getElem?.mp hsnapshot, Option.bind_some, hmem, hcounters]

theorem locate_of_known {s : MainLoop V} {counters : Handle} (h : s.Knows counters) :
    ∃ place, s.locate counters = some place := by
  obtain ⟨u, hpublishes⟩ := h
  obtain ⟨tables, hmem, hentry⟩ := publishes_iff.mp hpublishes
  obtain ⟨i, hi⟩ := List.mem_iff_getElem?.mp hmem
  rw [← Option.isSome_iff_exists, locate, List.findSome?_isSome_iff]
  refine ⟨(tables, i), List.mem_zipIdx_iff_getElem?.mpr hi, ?_⟩
  rw [Option.isSome_map, List.find?_isSome]
  exact ⟨(u, counters), Std.HashMap.mem_toList_iff_getElem?_eq_some.mpr hentry, by simp⟩

/-- The record that an event makes. -/
def recordOf? (s : MainLoop V) : LoopEvent V → Option Record
  | .record snapshot userId direction bytes =>
      (s.books.handle? snapshot userId).map fun h => ⟨userId, h, direction, bytes⟩
  | _ => none

/-- What an event does to the history of the books. -/
theorem booked_history (s : MainLoop V) (event : LoopEvent V) :
    s.published <+: (s.booked L event).published ∧
      (s.booked L event).records = s.records ++ (s.recordOf? event).toList := by
  have hnone : s.published <+: s.books.published ∧ s.books.records = s.records ++ [] :=
    ⟨List.prefix_refl _, (List.append_nil _).symm⟩
  cases event with
  | reply reply session alive detect =>
      rw [booked, ledgerEvent]
      cases s.phase with
      | firstUsers =>
          dsimp only [Accounting.step]
          cases s.books.inFlight with
          | none => exact ⟨List.prefix_append .., hnone.2⟩
          | some deltas => exact hnone
      | pollUsers =>
          dsimp only [Accounting.step]
          cases s.books.inFlight with
          | none => exact ⟨List.prefix_append .., hnone.2⟩
          | some deltas => exact hnone
      | traffic deltas =>
          dsimp only [Accounting.step]
          cases s.books.inFlight with
          | none => exact hnone
          | some deltas =>
              dsimp only
              cases PanelClient.readAck L.serde (PanelClient.reportTraffic s.panel _) reply <;>
                exact hnone
      | _ => exact hnone
  | record snapshot userId direction bytes =>
      rw [booked, ledgerEvent, recordOf?]
      dsimp only [Accounting.step]
      cases s.books.handle? snapshot userId with
      | none => exact hnone
      | some h => exact ⟨List.prefix_refl _, rfl⟩
  | trafficTick =>
      rw [booked, ledgerEvent]
      cases s.phase with
      | select =>
          dsimp only [Accounting.step]
          cases s.books.inFlight <;> exact hnone
      | _ => exact hnone
  | _ => exact hnone

theorem step_history (s : MainLoop V) (event : LoopEvent V) :
    s.published <+: (step L s event).published ∧
      (step L s event).records = s.records ++ (s.recordOf? event).toList := by
  obtain ⟨rt, -, -, -, heq⟩ := step_ledgers L s event
  have hhistory := booked_history (L := L) s event
  have hpublished : (step L s event).published = (s.booked L event).published :=
    congrArg Accounting.published heq
  have hrecords : (step L s event).records = (s.booked L event).records :=
    congrArg Accounting.records heq
  rw [hpublished, hrecords]
  exact hhistory

/-- What the outputs of a relay leave of the loop as it was, and what they add to it. -/
structure Takes (s t : MainLoop V) (outputs : List RelayOutput) (events : List (LoopEvent V)) :
    Prop where
  published_eq : t.published = s.published
  exchanges_eq : t.exchanges = s.exchanges
  tables_eq : t.runtime.tables = s.runtime.tables
  actions_eq : t.runtime.actions = s.runtime.actions
  records_eq : t.records.map Record.recording =
    s.records.map Record.recording ++ outputs.filterMap RelayOutput.recording?
  emissions_eq : events.filterMap LoopEvent.emission? = outputs.filterMap RelayOutput.emission?

theorem step_takes {s t : MainLoop V} (hpublished : t.published = s.published)
    {output : RelayOutput} (h : output.Within s.Knows) :
    ∃ event, s.delivered output = some event ∧ Takes t (step L t event) [output] [event] := by
  cases output with
  | record counters direction bytes =>
      obtain ⟨place, hplace⟩ := locate_of_known h
      have hhandle := locate_eq_some hplace
      rw [← hpublished] at hhandle
      refine ⟨.record place.1 place.2 direction bytes, by rw [delivered, hplace]; rfl, ?_⟩
      have hstep : step L t (.record place.1 place.2 direction bytes) = { t with
          runtime := { t.runtime with
            traffic := t.runtime.traffic.record counters
              (UserCounters.recordBytes bytes direction) }
          records := t.records ++ [⟨place.2, counters, direction, bytes⟩] } := by
        rw [step, record, hhandle]
      rw [hstep]
      exact ⟨rfl, rfl, rfl, rfl, List.map_append, rfl⟩
  | emit event =>
      refine ⟨.emit event, rfl, ?_⟩
      have hnone : t.records.map Record.recording = t.records.map Record.recording ++ [] :=
        (List.append_nil _).symm
      rw [step, emit]
      split
      · exact ⟨rfl, rfl, rfl, rfl, hnone, rfl⟩
      · split <;> exact ⟨rfl, rfl, rfl, rfl, hnone, rfl⟩

theorem run_takes {s t : MainLoop V} (hpublished : t.published = s.published)
    {outputs : List RelayOutput} (h : ∀ output ∈ outputs, output.Within s.Knows) :
    Takes t (Machine.run (step L) t (outputs.filterMap s.delivered)) outputs
      (outputs.filterMap s.delivered) := by
  induction outputs generalizing t with
  | nil => exact ⟨rfl, rfl, rfl, rfl, (List.append_nil _).symm, rfl⟩
  | cons output outputs ih =>
      obtain ⟨event, hevent, hfirst⟩ := step_takes (L := L) hpublished (h output List.mem_cons_self)
      have hrest := ih (hfirst.published_eq.trans hpublished) fun other hmem =>
        h other (List.mem_cons_of_mem _ hmem)
      rw [List.filterMap_cons_some hevent, Machine.run_cons]
      refine ⟨hrest.published_eq.trans hfirst.published_eq,
        hrest.exchanges_eq.trans hfirst.exchanges_eq, hrest.tables_eq.trans hfirst.tables_eq, hrest.actions_eq.trans hfirst.actions_eq, ?_, ?_⟩
      · rw [hrest.records_eq, hfirst.records_eq, List.append_assoc, ← List.filterMap_append,
          List.singleton_append]
      · have hone := hfirst.emissions_eq
        rw [← List.singleton_append, List.filterMap_append, hone, hrest.emissions_eq,
          ← List.filterMap_append, List.singleton_append]

/-- The supervisor's own steps record nothing, and emit nothing. -/
theorem own_silent {s : MainLoop V} {event : LoopEvent V} (h : event.own = true) :
    s.recordOf? event = none ∧ event.emission? = none := by
  cases event with
  | emit event => cases h
  | record snapshot userId direction bytes => cases h
  | _ => exact ⟨rfl, rfl⟩

/-- A record is on a counter of its user. -/
def Sourced (s : MainLoop V) : Prop := ∀ r ∈ s.records, s.publishes r.userId r.handle = true

theorem step_sourced {s : MainLoop V} (h : s.Sourced) (event : LoopEvent V) :
    (step L s event).Sourced := by
  obtain ⟨hpublished, hrecords⟩ := step_history (L := L) s event
  intro r hmem
  rw [hrecords] at hmem
  apply publishes_mono hpublished
  cases List.mem_append.mp hmem with
  | inl hold => exact h r hold
  | inr hnew =>
      cases event with
      | record snapshot userId direction bytes =>
          obtain ⟨counters, hcounters, rfl⟩ :=
            Option.map_eq_some_iff.mp (Option.mem_toList.mp hnew)
          obtain ⟨tables, htables, hentry⟩ := Option.bind_eq_some_iff.mp hcounters
          exact publishes_iff.mpr ⟨tables, List.mem_of_getElem? htables, hentry⟩
      | _ => cases hnew

variable (L) in
theorem tables_published (config : Config) (panel : PanelConfig) (events : List (LoopEvent V)) :
    (after L config panel events).runtime.tables ∈ (after L config panel events).published := by
  have hstart : (start config panel : MainLoop V).books.Sound (fun _ => 0) fun _ _ => 0 :=
    Accounting.start_sound config
  obtain ⟨owner, hs⟩ := run_sound (L := L) hstart events
  exact hs.current

end MainLoop

/-! ### Runs of the backend -/

namespace Backend

variable {V : Type} {L : Libraries V} {limits : RelayLimits} {config : Config}
  {panel : PanelConfig}

variable (L config panel) in
/-- The loop has been through its trace, and the outputs of the listeners are in it: what they have
recorded is what the loop has, and what they have emitted is what it was sent. -/
structure Tied (b : Backend V) : Prop where
  loop_eq : b.loop = MainLoop.after L config panel b.trace
  relays : ∀ relay ∈ b.relays, relay.loop.Within b.loop.Knows
  records_eq : b.loop.records.map Record.recording =
    b.outputs.filterMap fun output => output.2.recording?
  emissions_eq : b.trace.filterMap LoopEvent.emission? =
    b.outputs.filterMap fun output => output.2.emission?

theorem start_tied : Tied L config panel (start config panel) :=
  ⟨rfl, List.forall_mem_nil _, rfl, rfl⟩

/-- A property of the listeners that a new one has and that a stop does not touch. -/
theorem manageAll_keeps {Q : Relay → Prop} (hspawn : ∀ task, Q ⟨task, .binding, false⟩)
    (hstop : ∀ relay, Q relay → Q { relay with stopping := true }) {relays : List Relay}
    (h : ∀ relay ∈ relays, Q relay) (actions : List ListenerAction) :
    ∀ relay ∈ actions.foldl manage relays, Q relay := by
  induction actions generalizing relays with
  | nil => exact h
  | cons action actions ih =>
      apply ih
      intro relay hmem
      cases action with
      | spawn task =>
          cases List.mem_append.mp hmem with
          | inl hold => exact h relay hold
          | inr hnew =>
              rw [List.mem_singleton.mp hnew]
              exact hspawn task
      | stop port task =>
          obtain ⟨old, hold, rfl⟩ := List.mem_map.mp hmem
          split
          · exact hstop old (h old hold)
          · exact h old hold

/-- The listeners after a step of the supervisor: those there were watch the new tables. -/
theorem supervise_relays {Q : Relay → Prop} (hspawn : ∀ task, Q ⟨task, .binding, false⟩)
    (hstop : ∀ relay, Q relay → Q { relay with stopping := true }) {b : Backend V}
    {event : LoopEvent V}
    (hwatch : ∀ relay ∈ b.relays, Q { relay with
      loop := relay.loop.republish L.primitives (MainLoop.step L b.loop event).runtime.tables }) :
    ∀ relay ∈ (b.supervise L event).relays, Q relay := by
  apply manageAll_keeps hspawn hstop
  intro relay hmem
  obtain ⟨old, hold, rfl⟩ := List.mem_map.mp hmem
  exact hwatch old hold

theorem supervise_tied {b : Backend V} (h : Tied L config panel b) {event : LoopEvent V}
    (hown : event.own = true) : Tied L config panel (b.supervise L event) := by
  have hloop : MainLoop.step L b.loop event = MainLoop.after L config panel (b.trace ++ [event]) := by
    rw [h.loop_eq, MainLoop.after, MainLoop.after, Machine.run_append]
    rfl
  obtain ⟨hpublished, hrecords⟩ := MainLoop.step_history (L := L) b.loop event
  obtain ⟨hrecord, hemission⟩ := MainLoop.own_silent (s := b.loop) hown
  refine ⟨hloop, ?_, ?_, ?_⟩
  · refine supervise_relays (Q := fun relay => relay.loop.Within _) (fun _ => trivial)
      (fun _ hwithin => hwithin) ?_
    intro old hold
    have htables := MainLoop.tables_published L config panel (b.trace ++ [event])
    rw [← hloop] at htables
    apply ListenerLoop.republish_within _ (MainLoop.within_of_published htables)
    apply (h.relays old hold).mono
    rintro counters ⟨u, hpublishes⟩
    exact ⟨u, MainLoop.publishes_mono hpublished hpublishes⟩
  · rw [hrecord, Option.toList_none, List.append_nil] at hrecords
    change (MainLoop.step L b.loop event).records.map _ = _
    rw [hrecords]
    exact h.records_eq
  · change (b.trace ++ [event]).filterMap _ = _
    rw [List.filterMap_append, h.emissions_eq, List.filterMap_cons_none hemission,
      List.filterMap_nil, List.append_nil]
    rfl

variable (limits) in
/-- The step of a listener keeps to the counters that are known, and the loop takes its outputs. -/
theorem Tied.relay_takes {b : Backend V} (h : Tied L config panel b) {relay : Relay}
    (hmem : relay ∈ b.relays) (input : RelayInput) :
    let outputs := relay.outputs L.primitives b.loop.rules input
    let events := outputs.filterMap b.loop.delivered
    (relay.step L.primitives limits b.loop.runtime.tables b.loop.rules input).loop.Within
        b.loop.Knows ∧
      MainLoop.Takes b.loop (Machine.run (MainLoop.step L) b.loop events) outputs events := by
  have htables := MainLoop.tables_published L config panel b.trace
  rw [← h.loop_eq] at htables
  obtain ⟨hloop, houtputs⟩ : (relay.step L.primitives limits b.loop.runtime.tables
        b.loop.rules input).loop.Within b.loop.Knows ∧
      ∀ output ∈ relay.outputs L.primitives b.loop.rules input, output.Within b.loop.Knows :=
    Relay.step_within (h.relays relay hmem) (MainLoop.within_of_published htables) input
  exact ⟨hloop, MainLoop.run_takes rfl houtputs⟩

theorem relayStep_tied {b : Backend V} (h : Tied L config panel b) (i : Nat) (input : RelayInput) :
    Tied L config panel (b.relayStep L limits i input) := by
  rw [relayStep]
  cases hrelay : b.relays[i]? with
  | none => exact h
  | some relay =>
      obtain ⟨hloop, htakes⟩ := h.relay_takes limits (List.mem_of_getElem? hrelay) input
      have hknows : ∀ counters, b.loop.Knows counters → MainLoop.Knows (Machine.run
          (MainLoop.step L) b.loop ((relay.outputs L.primitives b.loop.rules input).filterMap
            b.loop.delivered)) counters := by
        rintro counters ⟨u, hpublishes⟩
        exact ⟨u, MainLoop.publishes_mono (htakes.published_eq ▸ List.prefix_refl _) hpublishes⟩
      have hfilter {α : Type} (f : RelayOutput → Option α) :
          ((relay.outputs L.primitives b.loop.rules input).map fun output =>
            (i, output)).filterMap (fun output => f output.2) =
          (relay.outputs L.primitives b.loop.rules input).filterMap f := by
        rw [List.filterMap_map]
        rfl
      refine ⟨?_, ?_, ?_, ?_⟩
      · dsimp only
        rw [MainLoop.after, Machine.run_append, h.loop_eq]
        rfl
      · intro other hmem
        apply ListenerLoop.Within.mono _ hknows
        cases List.mem_or_eq_of_mem_set hmem with
        | inl hold => exact h.relays other hold
        | inr hnew =>
            rw [hnew]
            exact hloop
      · dsimp only
        rw [htakes.records_eq, h.records_eq, List.filterMap_append, hfilter]
      · dsimp only
        rw [List.filterMap_append, List.filterMap_append, h.emissions_eq, htakes.emissions_eq,
          hfilter]

theorem step_tied {b : Backend V} (h : Tied L config panel b) (event : BackendEvent V) :
    Tied L config panel (step L limits b event) := by
  cases event with
  | supervisor event =>
      rw [step]
      split
      · exact supervise_tied h ‹_›
      · exact h
  | relay i input => exact relayStep_tied h i input

variable (L limits config panel) in
theorem run_tied (events : List (BackendEvent V)) :
    Tied L config panel (after L limits config panel events) := by
  have hstep : ∀ (b : Backend V) (event : BackendEvent V), Tied L config panel b →
      Tied L config panel (step L limits b event) := fun _ event h => step_tied h event
  exact Machine.run_keeps hstep start_tied events

/-! ### The bill of the panel -/

/-- The bytes that the listeners and their sessions have recorded on the counters of a user. -/
def carried (b : Backend V) (u : Nat) (d : Direction) : Nat :=
  tally (fun recording : Handle × Direction × Nat =>
      (b.loop.publishes u recording.1, recording.2.1))
    (fun recording => recording.2.2) (true, d)
    (b.outputs.filterMap fun output => output.2.recording?)

end Backend

/-- A counter is published for one user only. -/
theorem MainLoop.publishes_unique {V : Type} {L : Libraries V} {config : Config}
    {panel : PanelConfig} {events : List (LoopEvent V)} {u v : Nat} {counters : Handle}
    (hu : (after L config panel events).publishes u counters = true)
    (hv : (after L config panel events).publishes v counters = true) : u = v := by
  have hstart : (start config panel : MainLoop V).books.Sound (fun _ => 0) fun _ _ => 0 :=
    Accounting.start_sound config
  obtain ⟨owner, hs⟩ := run_sound (L := L) hstart events
  obtain ⟨tables, hmem, hentry⟩ := publishes_iff.mp hu
  obtain ⟨tables', hmem', hentry'⟩ := publishes_iff.mp hv
  rw [← (hs.published tables hmem u counters hentry).2,
    (hs.published tables' hmem' v counters hentry').2]

theorem MainLoop.run_sourced {V : Type} (L : Libraries V) (config : Config) (panel : PanelConfig)
    (events : List (LoopEvent V)) : (after L config panel events).Sourced := by
  have hstep : ∀ (s : MainLoop V) (event : LoopEvent V), s.Sourced → (step L s event).Sourced :=
    fun _ event h => step_sourced h event
  have hstart : (start config panel : MainLoop V).Sourced := List.forall_mem_nil _
  exact Machine.run_keeps hstep hstart events

namespace Backend

variable {V : Type} {L : Libraries V} {limits : RelayLimits} {config : Config}
  {panel : PanelConfig}

/-- What the listeners have recorded for a user is what the loop has for it. -/
theorem Tied.carried_eq {b : Backend V} (h : Tied L config panel b) (u : Nat) (d : Direction) :
    b.carried u d = b.loop.recorded u d := by
  have hsourced : b.loop.Sourced := by
    rw [h.loop_eq]
    exact MainLoop.run_sourced L config panel b.trace
  rw [carried, ← h.records_eq, tally_map]
  apply tally_congr
  intro r hmem
  have howns : b.loop.publishes u r.handle = true ↔ r.userId = u := by
    refine ⟨?_, ?_⟩
    · intro hpublishes
      have hsource := hsourced r hmem
      rw [h.loop_eq] at hpublishes hsource
      exact MainLoop.publishes_unique hsource hpublishes
    · rintro rfl
      exact hsourced r hmem
  simp [Record.recording, howns]

variable (L limits) in
/-- From the sockets to the panel: what any listener or session has recorded on the counters of a
user, in whatever order they and the supervisor take their steps, as long as it is less than
`2^64`, is billed by the panel, pending, or lost with a counter that the user no longer has; and
all of it is billed or pending where every list has the user which the panel answers with. -/
theorem traffic_reaches_panel (config : Config) (panel : PanelConfig)
    (events : List (BackendEvent V)) (u : Nat) (d : Direction)
    (hsmall : (after L limits config panel events).carried u d < 2 ^ 64) :
    let b := after L limits config panel events
    b.carried u d = b.loop.billed L u d + b.loop.pending u d +
        MainLoop.lostIn L u d (.start config panel) b.trace ∧
      ((∀ exchange ∈ b.loop.exchanges, MainLoop.Lists L u config exchange) →
        b.loop.billed L u d + b.loop.pending u d = b.carried u d) := by
  intro b
  have htied : Tied L config panel b := run_tied L limits config panel events
  have hcarried := htied.carried_eq u d
  have hbalance : b.carried u d = b.loop.billed L u d + b.loop.pending u d +
      MainLoop.lostIn L u d (.start config panel) b.trace := by
    have hsmall' : b.carried u d < 2 ^ 64 := hsmall
    rw [hcarried, htied.loop_eq] at hsmall' ⊢
    exact MainLoop.run_balance L config panel b.trace hsmall'
  refine ⟨hbalance, ?_⟩
  intro hlists
  rw [htied.loop_eq] at hlists
  rw [hbalance, MainLoop.run_listed L config panel hlists, Nat.add_zero]

/-! ### A run -/

open BackendRuntime

def sampleTask (id : Nat) (kind : ListenerKind) : ListenerTask :=
  ⟨id, kind, 7, 443, "a", sampleProfile, enforcement sampleConfig, 0⟩

/-- The first list of users spawns the two listeners of its port. -/
theorem sample_actions :
    (applyUsers .standard noLimits [Accounting.billedRow] (new sampleConfig)).actions =
      [.spawn (sampleTask 0 .tcp), .spawn (sampleTask 1 .udp)] := by
  have hprofile : Profile.fromUser Accounting.billedRow sampleConfig.node = .ok sampleProfile := by
    decide +kernel
  obtain ⟨rt, hrt⟩ : ∃ rt, rt = publishTables .standard noLimits [Accounting.billedRow]
    (new sampleConfig) := ⟨_, rfl⟩
  have hconfig : rt.config = sampleConfig := by rw [hrt]; rfl
  have hnone (port : UInt16) : rt.activeUsers[port]? = none := by
    rw [hrt]
    exact Std.HashMap.getElem?_empty
  have hensure : rt.ensureListener Accounting.billedRow =
      rt.restart Accounting.billedRow sampleProfile := by
    rw [ensureListener, hconfig, hprofile]
    dsimp only
    rw [ensureActiveUser_eq, if_neg (by rw [fingerprintAt, hnone]; rintro ⟨⟩)]
  have hlive : ∀ port ∈ (rt.restart Accounting.billedRow sampleProfile).activeUsers,
      port ∈ livePorts (rt.restart Accounting.billedRow sampleProfile).config
        [Accounting.billedRow] := by
    intro port hport
    have hentry := restart_entry rt Accounting.billedRow sampleProfile port
    rw [Std.HashMap.getElem?_eq_some_getElem hport, hnone] at hentry
    have heq : Accounting.billedRow.port = port := by
      by_contra hne
      rw [if_neg hne] at hentry
      cases hentry
    rw [restart_config, hconfig, livePorts, List.filter_cons_of_pos (by rw [hprofile]; rfl), ← heq]
    exact List.mem_singleton_self _
  have happlied : (applyUsers .standard noLimits [Accounting.billedRow] (new sampleConfig)).actions =
      ((rt.ensureListener Accounting.billedRow).removeStalePorts (livePorts
        (rt.ensureListener Accounting.billedRow).config [Accounting.billedRow])).actions := by
    rw [hrt]
    rfl
  rw [happlied, hensure, removeStalePorts_of_live hlive, restart_actions,
    removePort_of_none (hnone _), restarted, removePort_of_none (hnone _), hrt]
  rfl

/-- A datagram of user 7 that ends before its target. -/
def sampleUplink : Inbound :=
  { UdpListener.sampleInbound [] with
    datagram := clientDatagram .standard .rc4Md5 (deriveMasterKey .standard "a" .rc4Md5)
      (deriveUserAuthKey .standard "a") (List.replicate 16 0x42) 7 [] }

theorem sampleUplink_length : sampleUplink.datagram.length = 24 := by
  change (clientDatagram .standard .rc4Md5 (deriveMasterKey .standard "a" .rc4Md5)
    (deriveUserAuthKey .standard "a") (List.replicate 16 0x42) 7 []).length = 24
  rw [clientDatagram, List.length_append, StreamCipher.length_process, List.length_append,
    length_mac _ _ _ (by decide)]
  rfl

def samplePort : UdpContext :=
  ⟨7, deriveMasterKey .standard "a" .rc4Md5, enforcement sampleConfig, 0, .rc4Md5⟩

theorem samplePort_outputs {tables : UserTables} {h : Handle}
    (hauth : tables.authUsers[7]? = some (deriveUserAuthKey .standard "a"))
    (hcounters : tables.countersByUser[7]? = some h) (rules : RuleSet) :
    (UdpListener.start tables 1 1).outputs .standard samplePort
      (.datagram { sampleUplink with rules := rules }) = [.record h .upload 24] := by
  have hdecrypt : udpDecryptPacket .standard samplePort.masterKey tables.authUsers
      samplePort.isMultiUser sampleUplink.datagram samplePort.cipherKind = .ok ([], some 7) :=
    udpDecryptPacket_listed .standard 0 (show CipherKind.rc4Md5.Takes _ from nofun) hauth rfl []
  have hdeliver (s : UdpListener) (signWith : List UInt8) :
      (UdpListener.deliver samplePort tables 7 signWith []
        { sampleUplink with rules := rules }).run s =
      (.err .incompleteAddress, { s with log := s.log ++ [.recordUpload h 24] }) := by
    rw [UdpListener.deliver, UdpListener.lookupCounters, hcounters, sampleUplink_length]
    rfl
  have hrun := UdpListener.handleInbound_run samplePort tables
    { sampleUplink with rules := rules } hdecrypt
  have hrunning : ¬(UdpListener.start tables 1 1).stopped = true := Bool.false_ne_true
  rw [UdpListener.outputs, UdpListener.step, if_neg hrunning]
  dsimp only [UdpListener.start] at hrun ⊢
  rw [hrun, Option.getD_some, hdeliver]
  rfl

/-- User 7 sends to the UDP listener of its port, and the panel acknowledges the report of it. -/
def sampleBilled : List (BackendEvent (List PanelUser)) :=
  sampleStart.map .supervisor ++ [.relay 1 (.bound (.ok ())),
    .relay 1 (.udp (.datagram sampleUplink)), .supervisor .trafficTick,
    .supervisor (.reply (.json [Accounting.billedRow]) 0 0 0)]

variable {b : Backend (List PanelUser)}

theorem sample_bound (hrelay : b.relays[1]? = some ⟨sampleTask 1 .udp, .binding, false⟩) :
    let b' := step sampleLibraries ⟨1, 1, 1⟩ b (.relay 1 (.bound (.ok ())))
    b'.loop = b.loop ∧ b'.relays[1]? = some ⟨sampleTask 1 .udp,
      .udp samplePort (UdpListener.start b.loop.runtime.tables 1 1), false⟩ := by
  have hkind : (sampleProfile.cipherKind : Outcome String CipherKind) = .ok .rc4Md5 := by
    decide +kernel
  have hlt : 1 < b.relays.length := (List.getElem?_eq_some_iff.mp hrelay).1
  rw [step, relayStep, hrelay]
  refine ⟨rfl, ?_⟩
  dsimp only
  rw [List.getElem?_set_self hlt, Relay.step]
  dsimp only
  rw [ListenerLoop.opened, show (sampleTask 1 .udp).profile = sampleProfile from rfl, hkind]
  rfl

theorem sample_datagram {tables : UserTables} {h k : Nat}
    (hrelay : b.relays[1]? = some ⟨sampleTask 1 .udp,
      .udp samplePort (UdpListener.start tables 1 1), false⟩)
    (hauth : tables.authUsers[7]? = some (deriveUserAuthKey .standard "a"))
    (hcounters : tables.countersByUser[7]? = some h) (hplace : b.loop.locate h = some (k, 7)) :
    (step sampleLibraries ⟨1, 1, 1⟩ b (.relay 1 (.udp (.datagram sampleUplink)))).loop =
      MainLoop.step sampleLibraries b.loop (.record k 7 .upload 24) := by
  have houtputs : Relay.outputs .standard b.loop.rules ⟨sampleTask 1 .udp,
      .udp samplePort (UdpListener.start tables 1 1), false⟩ (.udp (.datagram sampleUplink)) =
      [.record h .upload 24] := samplePort_outputs hauth hcounters b.loop.rules
  rw [step, relayStep, hrelay]
  dsimp only
  rw [show sampleLibraries.primitives = .standard from rfl, houtputs, List.filterMap_cons,
    MainLoop.delivered, hplace]
  rfl

theorem sample_located : ∃ k h,
    (MainLoop.after sampleLibraries sampleConfig samplePanel sampleStart).locate h = some (k, 7) ∧
    (applyUsers .standard noLimits [Accounting.billedRow]
      (new sampleConfig)).tables.countersByUser[7]? = some h := by
  obtain ⟨h, -, hhandle⟩ := Accounting.billed_counter
  have hentry : (applyUsers .standard noLimits [Accounting.billedRow]
      (new sampleConfig)).tables.countersByUser[7]? = some h := hhandle
  have hpublishes : (MainLoop.after sampleLibraries sampleConfig samplePanel
      sampleStart).publishes 7 h = true :=
    MainLoop.publishes_iff.mpr ⟨_, List.mem_of_getElem? (i := 1) rfl, hentry⟩
  obtain ⟨place, hplace⟩ := MainLoop.locate_of_known ⟨7, hpublishes⟩
  obtain ⟨tables, htables, hfound⟩ := Option.bind_eq_some_iff.mp (MainLoop.locate_eq_some hplace)
  have huser : place.2 = 7 := MainLoop.publishes_unique
    (MainLoop.publishes_iff.mpr ⟨tables, List.mem_of_getElem? htables, hfound⟩) hpublishes
  exact ⟨place.1, h, by rw [hplace, ← huser], hentry⟩

theorem sampleBilled_loop : ∃ k h,
    (MainLoop.after sampleLibraries sampleConfig samplePanel sampleStart).books.handle? k 7 =
      some h ∧
    (after sampleLibraries ⟨1, 1, 1⟩ sampleConfig samplePanel sampleBilled).loop =
      MainLoop.after sampleLibraries sampleConfig samplePanel (sampleStart ++
        [.record k 7 .upload 24, .trafficTick, .reply (.json [Accounting.billedRow]) 0 0 0]) := by
  obtain ⟨k, h, hplace, hentry⟩ := sample_located
  have hrow : ordinaryRow? [Accounting.billedRow] 7 = some Accounting.billedRow := by
    simp [ordinaryRow?, Accounting.billedRow, sampleRow, PanelUser.userId]
  have hauth : (applyUsers .standard noLimits [Accounting.billedRow]
      (new sampleConfig)).tables.authUsers[7]? = some (deriveUserAuthKey .standard "a") := by
    rw [applyUsers_auth, hrow]
    rfl
  have hrelay : (after sampleLibraries ⟨1, 1, 1⟩ sampleConfig samplePanel
      (sampleStart.map .supervisor)).relays[1]? = some ⟨sampleTask 1 .udp, .binding, false⟩ := by
    change ((applyUsers .standard noLimits [Accounting.billedRow]
      (new sampleConfig)).actions.foldl manage [])[1]? = _
    rw [sample_actions]
    rfl
  have hloop : (after sampleLibraries ⟨1, 1, 1⟩ sampleConfig samplePanel
      (sampleStart.map .supervisor)).loop =
      MainLoop.after sampleLibraries sampleConfig samplePanel sampleStart := rfl
  refine ⟨k, h, MainLoop.locate_eq_some hplace, ?_⟩
  rw [after] at hrelay hloop ⊢
  rw [sampleBilled, Machine.run_append]
  generalize Machine.run (step sampleLibraries ⟨1, 1, 1⟩)
    (start sampleConfig samplePanel) (sampleStart.map .supervisor) = b at hrelay hloop ⊢
  obtain ⟨hloop', hrelay'⟩ := sample_bound hrelay
  rw [hloop] at hloop' hrelay'
  rw [Machine.run_cons]
  generalize step sampleLibraries ⟨1, 1, 1⟩ b (.relay 1 (.bound (.ok ()))) = b'
    at hloop' hrelay' ⊢
  have hnext := sample_datagram hrelay' hauth hentry (by rw [hloop']; exact hplace)
  rw [Machine.run_cons]
  generalize step sampleLibraries ⟨1, 1, 1⟩ b' (.relay 1 (.udp (.datagram sampleUplink))) = b''
    at hnext ⊢
  rw [MainLoop.after, Machine.run_append, ← MainLoop.after, ← hloop']
  change _ = Machine.run _ (MainLoop.step sampleLibraries b'.loop (.record k 7 .upload 24)) _
  rw [← hnext]
  rfl

theorem sample_listed {k : Nat} {more : List (LoopEvent (List PanelUser))}
    (hmore : more = [] ∨ more = [.trafficTick, .reply (.json [Accounting.billedRow]) 0 0 0]) :
    ∀ exchange ∈ (MainLoop.after sampleLibraries sampleConfig samplePanel
      (sampleStart ++ .record k 7 .upload 24 :: more)).exchanges,
        MainLoop.Lists sampleLibraries 7 sampleConfig exchange := by
  apply MainLoop.sample_lists
  intro reply session alive detect hmem
  rcases hmore with rfl | rfl <;>
  · simp only [sampleStart, List.mem_append, List.mem_replicate, List.mem_cons, List.not_mem_nil,
      or_false, LoopEvent.reply.injEq, reduceCtorEq, false_or] at hmem
    tauto

/-- The bytes of the datagram are pending until they are reported. -/
theorem sample_pending {k h : Nat}
    (hhandle : (MainLoop.after sampleLibraries sampleConfig samplePanel sampleStart).books.handle?
      k 7 = some h) :
    let s := MainLoop.after sampleLibraries sampleConfig samplePanel
      (sampleStart ++ [.record k 7 .upload 24])
    s.phase = .select ∧ s.records = [⟨7, h, .upload, 24⟩] ∧ s.reports = [] ∧
      s.pending 7 .upload = 24 := by
  intro s
  have hrun : s = (MainLoop.after sampleLibraries sampleConfig samplePanel sampleStart).record k 7
      .upload 24 := Machine.run_append ..
  have hbound : (MainLoop.after sampleLibraries sampleConfig samplePanel
      sampleStart).published[k]?.bind (fun tables => tables.countersByUser[7]?) = some h := hhandle
  rw [MainLoop.record, hbound] at hrun
  have hrecords : s.records = [⟨7, h, .upload, 24⟩] := by rw [hrun]; rfl
  have hreports : s.reports = [] := by rw [hrun]; rfl
  have hphase : s.phase = .select := by rw [hrun]; rfl
  have hrecorded : s.recorded 7 .upload = 24 := by
    rw [MainLoop.recorded, Accounting.recorded, MainLoop.books, hrecords]
    rfl
  have hsmall : s.recorded 7 .upload < 2 ^ 64 := by
    rw [hrecorded]
    decide
  have hbalance := MainLoop.run_balance sampleLibraries sampleConfig samplePanel _ hsmall
  have hlost := MainLoop.run_listed sampleLibraries sampleConfig samplePanel
    (sample_listed (k := k) (Or.inl rfl)) .upload
  have hbilled := MainLoop.billed_eq (L := sampleLibraries) sampleConfig samplePanel
    (sampleStart ++ [.record k 7 .upload 24]) 7 .upload
  have hnone : s.books.acknowledged 7 .upload = 0 := by
    rw [Accounting.acknowledged, MainLoop.books, hreports]
    rfl
  refine ⟨hphase, hrecords, hreports, ?_⟩
  dsimp only at hbalance
  rw [hlost, hbilled, hnone, hrecorded, Nat.zero_add, Nat.add_zero] at hbalance
  exact hbalance.symm

/-- The report leaves its deltas with the panel and no record behind. -/
theorem sample_reported {k h : Nat}
    (hhandle : (MainLoop.after sampleLibraries sampleConfig samplePanel sampleStart).books.handle?
      k 7 = some h) :
    let s := MainLoop.after sampleLibraries sampleConfig samplePanel (sampleStart ++
      [.record k 7 .upload 24, .trafficTick, .reply (.json [Accounting.billedRow]) 0 0 0])
    s.recorded 7 .upload = 24 ∧ s.billed sampleLibraries 7 .upload = 24 := by
  intro s
  obtain ⟨hselect, hrecords, hreports, hpending⟩ := sample_pending hhandle
  have hack (request : Request) : PanelClient.readAck sampleLibraries.serde request
      (.json [Accounting.billedRow]) = .ok () := rfl
  have hreported := MainLoop.report_acknowledged sampleLibraries hselect
    (show 0 < MainLoop.pending _ 7 .upload by rw [hpending]; decide)
    (fun deltas => hack _) 0 0 0
  have hlast : s = MainLoop.step sampleLibraries (MainLoop.step sampleLibraries
      (MainLoop.after sampleLibraries sampleConfig samplePanel
        (sampleStart ++ [.record k 7 .upload 24])) .trafficTick)
      (.reply (.json [Accounting.billedRow]) 0 0 0) := by
    change MainLoop.after _ _ _ _ = _
    rw [MainLoop.after, MainLoop.after, Machine.run_append, Machine.run_append]
    rfl
  have hbooks : s.records = [⟨7, h, .upload, 24⟩] := by
    rw [hlast, (MainLoop.step_history _ _).2, (MainLoop.step_history _ _).2, hrecords]
    rfl
  rw [← hlast, hreports, List.nil_append] at hreported
  refine ⟨?_, ?_⟩
  · rw [MainLoop.recorded, Accounting.recorded, MainLoop.books, hbooks]
    rfl
  · refine (MainLoop.billed_eq sampleConfig samplePanel _ 7 .upload).trans ?_
    change tally _ _ _ s.reports.flatten = 24
    rw [hreported, List.flatten_singleton]
    exact hpending

/-- What user 7 has sent is on the panel's bill. -/
theorem traffic_reaches_panel_sample :
    let b := after sampleLibraries ⟨1, 1, 1⟩ sampleConfig samplePanel sampleBilled
    b.carried 7 .upload = 24 ∧ b.loop.billed sampleLibraries 7 .upload = 24 ∧
      b.loop.billed sampleLibraries 7 .upload + b.loop.pending 7 .upload = b.carried 7 .upload := by
  intro b
  obtain ⟨k, h, hhandle, hloop⟩ := sampleBilled_loop
  obtain ⟨hrecorded, hbilled⟩ := sample_reported hhandle
  rw [← hloop] at hrecorded hbilled
  have htied := run_tied sampleLibraries ⟨1, 1, 1⟩ sampleConfig samplePanel sampleBilled
  have hcarried : b.carried 7 .upload = 24 := (htied.carried_eq 7 .upload).trans hrecorded
  have hsmall : b.carried 7 .upload < 2 ^ 64 := by
    rw [hcarried]
    decide
  refine ⟨hcarried, hbilled, (traffic_reaches_panel sampleLibraries ⟨1, 1, 1⟩ sampleConfig
    samplePanel sampleBilled 7 .upload hsmall).2 ?_⟩
  rw [hloop]
  exact sample_listed (Or.inr rfl)

end Backend

end SsrBackend
