import SsrBackend.Foundation.BoundedQueue
import SsrBackend.Relay.StreamSizes
import SsrBackend.Ssr.SessionDirections

/-!
The relay loop of `handle_stream` between its two peers, write by write. The four
socket buffers between them are bounded queues. The client sends when it likes and
keeps reading, the target echoes: it reads what it has room to write back. The
task is in one place at a time, so that while it waits for room to write it reads
from neither peer.
-/

namespace SsrBackend

/-- The two ends of the relay. -/
inductive Peer where
  | client
  | remote
  deriving DecidableEq, Repr

/-- The error of a write to the peer that has not ended within the idle timeout. -/
def Peer.writeIdle : Peer → StreamError
  | client => .clientWriteIdle
  | remote => .remoteWriteIdle

/-- A write to the peer that the socket has taken whole. -/
def Peer.wrote (data : List UInt8) : Peer → Action
  | client => .writeClient data data.length
  | remote => .writeRemote data data.length

/-- The sizes of the socket buffers. -/
structure Capacities where
  fromClient : Nat
  toRemote : Nat
  fromRemote : Nat
  toClient : Nat
  fromClient_pos : 0 < fromClient
  toRemote_pos : 0 < toRemote
  fromRemote_pos : 0 < fromRemote
  toClient_pos : 0 < toClient

/-- Where the task is: in `select!`, in `acquire` or in `write_all` of one of the arms. -/
inductive RelayPhase where
  | selecting
  | acquiring (peer : Peer) (data : List UInt8)
  | writing (peer : Peer) (rest : List UInt8) (unfinished : rest ≠ [])
  | closed (result : Outcome StreamError Unit)

/-- The task, its session and the bytes in the socket buffers. -/
structure Duplex (caps : Capacities) where
  session : ServerSession
  relay : RelayPhase
  fromClient : BoundedQueue UInt8 caps.fromClient
  toRemote : BoundedQueue UInt8 caps.toRemote
  fromRemote : BoundedQueue UInt8 caps.fromRemote
  toClient : BoundedQueue UInt8 caps.toClient

inductive DuplexEvent where
  | clientSends (bytes : List UInt8)
  | clientReceives (n : Nat)
  | targetEchoes (n : Nat)
  | relayReads (peer : Peer) (n : Nat)
  | limiterGrants
  | relayWrites (n : Nat)
  | idleTimeout
  | writeTimeout
  deriving DecidableEq, Repr

def DuplexEvent.isTimeout : DuplexEvent → Bool
  | idleTimeout | writeTimeout => true
  | _ => false

/-- The event moves bytes that are on their way. -/
def DuplexEvent.delivers : DuplexEvent → Bool
  | clientSends _ => false
  | event => !event.isTimeout

namespace RelayPhase

/-- `write_all`; of no bytes it returns at once. -/
def write (peer : Peer) (data : List UInt8) : RelayPhase :=
  if h : data = [] then selecting else writing peer data h

/-- From the bytes of an arm to its `write_all`, through the limiter if there is one. -/
def forward (served : Served) (peer : Peer) (data : List UInt8) : RelayPhase :=
  match served.limiter with
  | some _ => acquiring peer data
  | none => write peer data

/-- The end of a codec call in an arm; `?` leaves the loop. -/
def after (next : List UInt8 → RelayPhase) : Outcome CodecError (List UInt8) → RelayPhase
  | .ok data => next data
  | .err e => closed (.err (.codec e))
  | .panic => closed .panic

/-- The arm for bytes from the client. -/
def onClient (P : Primitives) (served : Served) (session : ServerSession) (chunk : List UInt8) :
    RelayPhase :=
  after (fun data => if data = [] then selecting else forward served .remote data)
    ((ServerSession.decrypt P chunk).run session).1

/-- The arm for bytes from the target. -/
def onRemote (P : Primitives) (served : Served) (session : ServerSession) (chunk : List UInt8) :
    RelayPhase :=
  after (forward served .client) ((ServerSession.encrypt P chunk).run session).1

end RelayPhase

namespace Duplex

variable (P : Primitives) (served : Served) {caps : Capacities}

/-- One `read` of the relay; both reads are awaited in `select!` only. -/
def read (s : Duplex caps) (peer : Peer) (n : Nat) : Option (Duplex caps) :=
  match s.relay with
  | .selecting =>
      if n ≤ readChunk then
        match peer with
        | .client =>
            (s.fromClient.take n).map fun (chunk, rest) => { s with
              fromClient := rest
              session := ((ServerSession.decrypt P chunk).run s.session).2
              relay := .onClient P served s.session chunk }
        | .remote =>
            (s.fromRemote.take n).map fun (chunk, rest) => { s with
              fromRemote := rest
              session := ((ServerSession.encrypt P chunk).run s.session).2
              relay := .onRemote P served s.session chunk }
      else none
  | _ => none

/-- One `write` of `write_all`: the socket takes the first `n` of the bytes. -/
def write (s : Duplex caps) (n : Nat) : Option (Duplex caps) :=
  match s.relay with
  | .writing .remote rest _ =>
      (s.toRemote.put (rest.take n)).map fun toRemote =>
        { s with toRemote := toRemote, relay := .write .remote (rest.drop n) }
  | .writing .client rest _ =>
      (s.toClient.put (rest.take n)).map fun toClient =>
        { s with toClient := toClient, relay := .write .client (rest.drop n) }
  | _ => none

def step (s : Duplex caps) : DuplexEvent → Option (Duplex caps)
  | .clientSends bytes =>
      (s.fromClient.put bytes).map fun fromClient => { s with fromClient := fromClient }
  | .clientReceives n => (s.toClient.take n).map fun (_, rest) => { s with toClient := rest }
  | .targetEchoes n =>
      (s.toRemote.take n).bind fun (bytes, rest) =>
        (s.fromRemote.put bytes).map fun fromRemote =>
          { s with toRemote := rest, fromRemote := fromRemote }
  | .relayReads peer n => s.read P served peer n
  | .limiterGrants =>
      match s.relay with
      | .acquiring peer data => some { s with relay := .write peer data }
      | _ => none
  | .relayWrites n => s.write n
  | .idleTimeout =>
      match s.relay with
      | .selecting => some { s with relay := .closed (.err .sessionIdle) }
      | _ => none
  | .writeTimeout =>
      match s.relay with
      | .writing peer _ _ => some { s with relay := .closed (.err peer.writeIdle) }
      | _ => none

def run (s : Duplex caps) (events : List DuplexEvent) : Option (Duplex caps) :=
  Machine.tryRun (step P served) s events

def Enabled (s : Duplex caps) (event : DuplexEvent) : Prop := (step P served s event).isSome

/-- The loop as it is entered, with nothing on its way. -/
def start (session : ServerSession) : Duplex caps :=
  ⟨session, .selecting, .empty, .empty, .empty, .empty⟩

def Open (s : Duplex caps) : Prop := ∀ result, s.relay ≠ .closed result

/-- The bytes that the task has read and not yet written. -/
def held (s : Duplex caps) : List UInt8 :=
  match s.relay with
  | .acquiring _ data => data
  | .writing _ rest _ => rest
  | _ => []

/-- The bytes that wait for the relay to read. -/
def incoming (s : Duplex caps) : Peer → List UInt8
  | .client => s.fromClient.items
  | .remote => s.fromRemote.items

/-- How many bytes the socket to the peer takes now. -/
def room (s : Duplex caps) : Peer → Nat
  | .client => caps.toClient - s.toClient.items.length
  | .remote => caps.toRemote - s.toRemote.items.length

/-- Bytes are on their way: in a socket buffer or in the task. -/
def Undelivered (s : Duplex caps) : Prop :=
  s.fromClient.items ≠ [] ∨ s.toRemote.items ≠ [] ∨ s.fromRemote.items ≠ [] ∨
    s.toClient.items ≠ [] ∨ s.held ≠ []

/-- The relay waits for the target to read, and the target waits for the relay to read. -/
structure CircularWait (s : Duplex caps) : Prop where
  writing : ∃ rest h, s.relay = .writing .remote rest h
  toRemote_full : s.toRemote.Full
  fromRemote_full : s.fromRemote.Full

variable {P served} {s s' : Duplex caps}

section Enabled

theorem enabled_clientSends {bytes : List UInt8} : Enabled P served s (.clientSends bytes) ↔
    bytes ≠ [] ∧ s.fromClient.items.length + bytes.length ≤ caps.fromClient := by
  simp only [Enabled, step, Option.isSome_map, BoundedQueue.isSome_put]

theorem enabled_clientReceives {n : Nat} : Enabled P served s (.clientReceives n) ↔
    0 < n ∧ n ≤ s.toClient.items.length := by
  simp only [Enabled, step, Option.isSome_map, BoundedQueue.isSome_take]

theorem enabled_targetEchoes {n : Nat} : Enabled P served s (.targetEchoes n) ↔
    0 < n ∧ n ≤ s.toRemote.items.length ∧ s.fromRemote.items.length + n ≤ caps.fromRemote := by
  simp only [Enabled, step]
  by_cases hn : 0 < n ∧ n ≤ s.toRemote.items.length
  · rw [BoundedQueue.take, if_pos hn, Option.bind_some, Option.isSome_map,
      BoundedQueue.isSome_put_take (List.ne_nil_of_length_pos (by omega))]
    have hfits := s.fromRemote.fits
    omega
  · rw [BoundedQueue.take, if_neg hn]
    exact iff_of_false (by rintro ⟨⟩) fun h => hn ⟨h.1, h.2.1⟩

theorem enabled_relayReads {peer : Peer} {n : Nat} : Enabled P served s (.relayReads peer n) ↔
    s.relay = .selecting ∧ n ≤ readChunk ∧ 0 < n ∧ n ≤ (s.incoming peer).length := by
  simp only [Enabled, step, read]
  cases hrelay : s.relay with
  | selecting =>
      by_cases hn : n ≤ readChunk
      · cases peer with
        | client => simp [hn, incoming, BoundedQueue.isSome_take]
        | remote => simp [hn, incoming, BoundedQueue.isSome_take]
      · simp [hn]
  | acquiring peer data => simp
  | writing peer rest h => simp
  | closed result => simp

theorem enabled_limiterGrants : Enabled P served s .limiterGrants ↔
    ∃ peer data, s.relay = .acquiring peer data := by
  simp only [Enabled, step]
  cases hrelay : s.relay <;> simp

theorem enabled_relayWrites {n : Nat} : Enabled P served s (.relayWrites n) ↔
    ∃ peer rest h, s.relay = .writing peer rest h ∧ 0 < n ∧ min n rest.length ≤ s.room peer := by
  simp only [Enabled, step, write]
  cases hrelay : s.relay with
  | writing peer rest h =>
      cases peer with
      | client => simp [room, BoundedQueue.isSome_put_take h, h]
      | remote => simp [room, BoundedQueue.isSome_put_take h, h]
  | selecting => simp
  | acquiring peer data => simp
  | closed result => simp

theorem enabled_writeTimeout : Enabled P served s .writeTimeout ↔
    ∃ peer rest h, s.relay = .writing peer rest h := by
  simp only [Enabled, step]
  cases hrelay : s.relay <;> simp [*]

end Enabled

section Progress

/-- The relay goes on with its write when the socket has room for one byte. -/
theorem relayWrites_enabled {peer : Peer} {rest : List UInt8} {h : rest ≠ []}
    (hrelay : s.relay = .writing peer rest h) (hroom : 0 < s.room peer) :
    Enabled P served s (.relayWrites 1) := by
  apply enabled_relayWrites.mpr
  refine ⟨peer, rest, h, hrelay, Nat.one_pos, ?_⟩
  have hmin := Nat.min_le_left 1 rest.length
  omega

theorem relayReads_enabled (hrelay : s.relay = .selecting) {peer : Peer}
    (h : s.incoming peer ≠ []) : Enabled P served s (.relayReads peer 1) :=
  enabled_relayReads.mpr ⟨hrelay, by decide, Nat.one_pos, List.length_pos_iff.mpr h⟩

theorem targetEchoes_enabled (h : s.toRemote.items ≠ []) (hroom : ¬ s.fromRemote.Full) :
    Enabled P served s (.targetEchoes 1) := by
  have hfits := s.fromRemote.fits
  unfold BoundedQueue.Full at hroom
  exact enabled_targetEchoes.mpr ⟨Nat.one_pos, List.length_pos_iff.mpr h, by omega⟩

/-- A queue with room for something is not both empty and full. -/
theorem items_ne_nil_of_full {capacity : Nat} (hpos : 0 < capacity)
    {q : BoundedQueue UInt8 capacity} (hfull : q.Full) : q.items ≠ [] := by
  apply List.ne_nil_of_length_pos
  rw [hfull]
  exact hpos

/-- In `select!` the relay reads whatever there is, and else the target has something to echo. -/
theorem selecting_delivers (hrelay : s.relay = .selecting) (hread : s.toClient.items = [])
    (h : s.Undelivered) :
    ∃ event : DuplexEvent, event.delivers = true ∧ Enabled P served s event := by
  by_cases hclient : s.fromClient.items = []
  · by_cases hremote : s.fromRemote.items = []
    · have hheld : s.held = [] := by rw [held, hrelay]
      have hecho : s.toRemote.items ≠ [] := by
        simpa [Undelivered, hclient, hremote, hread, hheld] using h
      have hroom : ¬ s.fromRemote.Full := fun hfull =>
        items_ne_nil_of_full caps.fromRemote_pos hfull hremote
      exact ⟨.targetEchoes 1, rfl, targetEchoes_enabled hecho hroom⟩
    · exact ⟨.relayReads .remote 1, rfl, relayReads_enabled hrelay hremote⟩
  · exact ⟨.relayReads .client 1, rfl, relayReads_enabled hrelay hclient⟩

/-- In `write_all` the relay goes on, or the target makes room for it, or neither can. -/
theorem writing_delivers_or_circular {peer : Peer} {rest : List UInt8} {hrest : rest ≠ []}
    (hrelay : s.relay = .writing peer rest hrest) (hread : s.toClient.items = []) :
    (∃ event : DuplexEvent, event.delivers = true ∧ Enabled P served s event) ∨
      s.CircularWait := by
  by_cases hroom : 0 < s.room peer
  · exact Or.inl ⟨.relayWrites 1, rfl, relayWrites_enabled hrelay hroom⟩
  · cases peer with
    | client =>
        have hpos := caps.toClient_pos
        rw [room, hread, List.length_nil] at hroom
        omega
    | remote =>
        have htoRemote : s.toRemote.Full := by
          have hfits := s.toRemote.fits
          rw [room] at hroom
          unfold BoundedQueue.Full
          omega
        by_cases hfull : s.fromRemote.Full
        · exact Or.inr ⟨⟨rest, hrest, hrelay⟩, htoRemote, hfull⟩
        · have hecho := items_ne_nil_of_full caps.toRemote_pos htoRemote
          exact Or.inl ⟨.targetEchoes 1, rfl, targetEchoes_enabled hecho hfull⟩

/-- Whenever bytes are on their way something moves them, except when relay and target
wait for each other and the client has read all it was sent. -/
theorem delivers_or_circular (hopen : s.Open) (h : s.Undelivered) :
    (∃ event : DuplexEvent, event.delivers = true ∧ Enabled P served s event) ∨
      (s.CircularWait ∧ s.toClient.items = []) := by
  by_cases hread : s.toClient.items = []
  · cases hrelay : s.relay with
    | closed result => exact absurd hrelay (hopen result)
    | acquiring peer data =>
        exact Or.inl ⟨.limiterGrants, rfl, enabled_limiterGrants.mpr ⟨peer, data, hrelay⟩⟩
    | selecting => exact Or.inl (selecting_delivers hrelay hread h)
    | writing peer rest hrest =>
        exact (writing_delivers_or_circular hrelay hread).imp_right fun hwait => ⟨hwait, hread⟩
  · have hpos := List.length_pos_iff.mpr hread
    exact Or.inl ⟨.clientReceives 1, rfl, enabled_clientReceives.mpr ⟨Nat.one_pos, hpos⟩⟩

/-- In a circular wait only the client moves, and the write timeout. -/
theorem CircularWait.enabled (h : s.CircularWait) {event : DuplexEvent}
    (hevent : Enabled P served s event) :
    (∃ bytes, event = .clientSends bytes) ∨ (∃ n, event = .clientReceives n) ∨
      event = .writeTimeout := by
  obtain ⟨⟨rest, hrest, hrelay⟩, htoRemote, hfromRemote⟩ := h
  unfold BoundedQueue.Full at htoRemote hfromRemote
  cases event with
  | clientSends bytes => exact Or.inl ⟨bytes, rfl⟩
  | clientReceives n => exact Or.inr (Or.inl ⟨n, rfl⟩)
  | writeTimeout => exact Or.inr (Or.inr rfl)
  | targetEchoes n =>
      have hechoes := enabled_targetEchoes.mp hevent
      omega
  | relayReads peer n =>
      have hreads := (enabled_relayReads.mp hevent).1
      rw [hrelay] at hreads
      cases hreads
  | limiterGrants =>
      obtain ⟨peer, data, hgrants⟩ := enabled_limiterGrants.mp hevent
      rw [hrelay] at hgrants
      cases hgrants
  | relayWrites n =>
      obtain ⟨peer, rest', hrest', hwrites, hn, hroom⟩ := enabled_relayWrites.mp hevent
      rw [hrelay] at hwrites
      cases hwrites
      have hpos := List.length_pos_iff.mpr hrest
      rw [room] at hroom
      omega
  | idleTimeout =>
      unfold Enabled step at hevent
      rw [hrelay] at hevent
      cases hevent

/-- What the two wait for stays as it is. -/
structure SameWait (s s' : Duplex caps) : Prop where
  relay_eq : s'.relay = s.relay
  toRemote_eq : s'.toRemote = s.toRemote
  fromRemote_eq : s'.fromRemote = s.fromRemote

theorem SameWait.circular (h : SameWait s s') (hwait : s.CircularWait) : s'.CircularWait where
  writing := h.relay_eq ▸ hwait.writing
  toRemote_full := h.toRemote_eq ▸ hwait.toRemote_full
  fromRemote_full := h.fromRemote_eq ▸ hwait.fromRemote_full

/-- No event but the timeout ends a circular wait. -/
theorem CircularWait.step_same (h : s.CircularWait) {event : DuplexEvent}
    (hevent : event.isTimeout = false) (hstep : step P served s event = some s') :
    SameWait s s' := by
  have henabled : Enabled P served s event := Option.isSome_of_eq_some hstep
  rcases h.enabled henabled with ⟨bytes, rfl⟩ | ⟨n, rfl⟩ | rfl
  · obtain ⟨queue, -, rfl⟩ := Option.map_eq_some_iff.mp hstep
    exact ⟨rfl, rfl, rfl⟩
  · obtain ⟨taken, -, rfl⟩ := Option.map_eq_some_iff.mp hstep
    exact ⟨rfl, rfl, rfl⟩
  · cases hevent

theorem CircularWait.run_same (h : s.CircularWait) {events : List DuplexEvent}
    (hevents : ∀ event ∈ events, event.isTimeout = false)
    (hrun : run P served s events = some s') : SameWait s s' := by
  have hstep (t : Duplex caps) (event : DuplexEvent) (next : Duplex caps)
      (hnext : step P served t event = some next) (hevent : event.isTimeout = false)
      (hsame : SameWait s t) : SameWait s next := by
    have hstays := (hsame.circular h).step_same hevent hnext
    exact ⟨hstays.relay_eq.trans hsame.relay_eq, hstays.toRemote_eq.trans hsame.toRemote_eq,
      hstays.fromRemote_eq.trans hsame.fromRemote_eq⟩
  exact Machine.tryRun_keeps hstep hrun hevents ⟨rfl, rfl, rfl⟩

/-- The bytes between the relay's read from the client and its read from the target. -/
def atTarget (s : Duplex caps) : Nat :=
  s.held.length + s.toRemote.items.length + s.fromRemote.items.length

theorem CircularWait.atTarget_gt (h : s.CircularWait) :
    caps.toRemote + caps.fromRemote < s.atTarget := by
  obtain ⟨⟨rest, hrest, hrelay⟩, htoRemote, hfromRemote⟩ := h
  have hpos := List.length_pos_iff.mpr hrest
  have hheld : s.held = rest := by rw [held, hrelay]
  unfold BoundedQueue.Full at htoRemote hfromRemote
  unfold atTarget
  rw [hheld]
  omega

end Progress

section Tracking

variable (P served) (ctx : StreamContext)

/-- `handle_stream` at the `select!`, with the event by which it will have written `data`
to the peer, or have run into the timeout. -/
def Pending (peer : Peer) (data : List UInt8) (session : ServerSession) (c : Connection) : Prop :=
  ∃ event : Delivery → StreamEvent,
    (Connection.step P ctx c (event .done)).phase = .relay session served ∧
    (Connection.step P ctx c (event .done)).log.getLast? = some (peer.wrote data) ∧
    ∀ sent, (Connection.step P ctx c (event (.timedOut sent))).phase =
      .closed (.err peer.writeIdle)

/-- The connection that has taken the turns the task has ended. -/
def Tracks (session : ServerSession) : RelayPhase → Connection → Prop
  | .selecting, c => c.phase = .relay session served
  | .acquiring peer data, c => Pending P served ctx peer data session c
  | .writing peer rest _, c => ∃ sent, Pending P served ctx peer (sent ++ rest) session c
  | .closed result, c => c.phase = .closed result

variable {P served ctx} {session : ServerSession} {c : Connection}

/-- What is left of a pending write is written, or the turn has ended. -/
theorem Pending.tracks {peer : Peer} {sent rest : List UInt8}
    (h : Pending P served ctx peer (sent ++ rest) session c) :
    ∃ events, Tracks P served ctx session (.write peer rest)
      (Machine.run (Connection.step P ctx) c events) := by
  unfold RelayPhase.write
  split
  · obtain ⟨event, hdone, -⟩ := h
    exact ⟨[event .done], hdone⟩
  · exact ⟨[], sent, h⟩

theorem Pending.tracks_forward {peer : Peer} {data : List UInt8}
    (h : Pending P served ctx peer data session c) :
    ∃ events, Tracks P served ctx session (.forward served peer data)
      (Machine.run (Connection.step P ctx) c events) := by
  unfold RelayPhase.forward
  split
  · exact ⟨[], h⟩
  · have hall : Pending P served ctx peer ([] ++ data) session c := h
    exact hall.tracks

/-- The end of an arm: the wait for the limiter, the write and the way back to `select!`. -/
def armEnd (limiter : Option Handle) (peer : Peer) (data : List UInt8) (next : StreamPhase)
    (write : Delivery) : StreamTask StreamPhase := do
  StreamTask.throttle limiter data.length
  match peer with
  | .client => StreamTask.writeClient data write
  | .remote => StreamTask.writeRemote data write
  return next

theorem armEnd_done (limiter : Option Handle) (peer : Peer) (data : List UInt8)
    (next : StreamPhase) (log : List Action) :
    (Connection.settle ((armEnd limiter peer data next .done).run log)).phase = next ∧
      (Connection.settle ((armEnd limiter peer data next .done).run log)).log.getLast? =
        some (peer.wrote data) := by
  cases peer <;> cases limiter <;> exact ⟨rfl, List.getLast?_concat⟩

theorem armEnd_timedOut (limiter : Option Handle) (peer : Peer) (data : List UInt8)
    (next : StreamPhase) (log : List Action) (sent : Nat) :
    (Connection.settle ((armEnd limiter peer data next (.timedOut sent)).run log)).phase =
      .closed (.err peer.writeIdle) := by
  cases peer <;> cases limiter <;> rfl

theorem tracks_onClient (world : World) (hc : c.phase = .relay session served)
    {chunk : List UInt8} (hchunk : chunk ≠ []) :
    ∃ events, Tracks P served ctx ((ServerSession.decrypt P chunk).run session).2
      (.onClient P served session chunk) (Machine.run (Connection.step P ctx) c events) := by
  have hturn (write : Delivery) :
      Connection.step P ctx c (.clientRead chunk world write) =
        Connection.settle ((Connection.clientTurn P session served chunk write).run c.log) := by
    rw [Connection.step, hc]
    rfl
  simp only [Connection.clientTurn, if_neg hchunk, StreamTask.perform] at hturn
  unfold RelayPhase.onClient
  cases hcall : ((ServerSession.decrypt P chunk).run session).1 with
  | err e =>
      refine ⟨[.clientRead chunk world .done], ?_⟩
      rw [Machine.run_cons, hturn, hcall]
      rfl
  | panic =>
      refine ⟨[.clientRead chunk world .done], ?_⟩
      rw [Machine.run_cons, hturn, hcall]
      rfl
  | ok data =>
      by_cases hdata : data = []
      · refine ⟨[.clientRead chunk world .done], ?_⟩
        rw [Machine.run_cons, hturn, hcall]
        simp only [RelayPhase.after, StreamTask.lift, pure_bind, if_pos hdata]
        rfl
      · simp only [RelayPhase.after, if_neg hdata]
        apply Pending.tracks_forward
        refine ⟨.clientRead chunk world, ?_⟩
        simp only [hturn, hcall, StreamTask.lift, pure_bind, if_neg hdata]
        have hdone := armEnd_done served.limiter .remote data
          (.relay ((ServerSession.decrypt P chunk).run session).2 served)
        exact ⟨(hdone _).1, (hdone _).2, armEnd_timedOut served.limiter .remote data _ _⟩

theorem tracks_onRemote (hc : c.phase = .relay session served) {chunk : List UInt8}
    (hchunk : chunk ≠ []) :
    ∃ events, Tracks P served ctx ((ServerSession.encrypt P chunk).run session).2
      (.onRemote P served session chunk) (Machine.run (Connection.step P ctx) c events) := by
  have hturn (write : Delivery) :
      Connection.step P ctx c (.remoteRead chunk write) =
        Connection.settle ((Connection.remoteTurn P session served chunk write).run c.log) := by
    rw [Connection.step, hc]
    rfl
  simp only [Connection.remoteTurn, if_neg hchunk, StreamTask.perform] at hturn
  unfold RelayPhase.onRemote
  cases hcall : ((ServerSession.encrypt P chunk).run session).1 with
  | err e =>
      refine ⟨[.remoteRead chunk .done], ?_⟩
      rw [Machine.run_cons, hturn, hcall]
      rfl
  | panic =>
      refine ⟨[.remoteRead chunk .done], ?_⟩
      rw [Machine.run_cons, hturn, hcall]
      rfl
  | ok wire =>
      apply Pending.tracks_forward
      refine ⟨.remoteRead chunk, ?_⟩
      simp only [hturn, hcall, StreamTask.lift, pure_bind]
      have hdone := armEnd_done served.limiter .client wire
        (.relay ((ServerSession.encrypt P chunk).run session).2 served)
      exact ⟨(hdone _).1, (hdone _).2, armEnd_timedOut served.limiter .client wire _ _⟩

/-- A `read` of the relay is the first half of a turn of `handle_stream`. -/
theorem read_tracks (world : World) {peer : Peer} {n : Nat}
    (hread : s.read P served peer n = some s') (h : Tracks P served ctx s.session s.relay c) :
    ∃ events, Tracks P served ctx s'.session s'.relay
      (Machine.run (Connection.step P ctx) c events) := by
  unfold read at hread
  split at hread
  case h_2 => cases hread
  case h_1 hrelay =>
    rw [hrelay] at h
    split at hread
    case isFalse => cases hread
    case isTrue =>
      cases peer with
      | client =>
          obtain ⟨⟨chunk, rest⟩, htake, rfl⟩ := Option.map_eq_some_iff.mp hread
          exact tracks_onClient world h (BoundedQueue.take_ne_nil htake)
      | remote =>
          obtain ⟨⟨chunk, rest⟩, htake, rfl⟩ := Option.map_eq_some_iff.mp hread
          exact tracks_onRemote h (BoundedQueue.take_ne_nil htake)

/-- A `write` of the relay goes on with the turn, and the last one ends it. -/
theorem write_tracks {n : Nat} (hwrite : s.write n = some s')
    (h : Tracks P served ctx s.session s.relay c) :
    ∃ events, Tracks P served ctx s'.session s'.relay
      (Machine.run (Connection.step P ctx) c events) := by
  have hrest (peer : Peer) (rest : List UInt8) (hnil : rest ≠ [])
      (hrelay : s.relay = .writing peer rest hnil) :
      ∃ events, Tracks P served ctx s.session (.write peer (rest.drop n))
        (Machine.run (Connection.step P ctx) c events) := by
    rw [hrelay] at h
    obtain ⟨sent, hpending⟩ := h
    rw [← List.take_append_drop n rest, ← List.append_assoc] at hpending
    exact hpending.tracks
  unfold write at hwrite
  split at hwrite
  case h_1 rest hnil hrelay =>
    obtain ⟨queue, -, rfl⟩ := Option.map_eq_some_iff.mp hwrite
    exact hrest .remote rest hnil hrelay
  case h_2 rest hnil hrelay =>
    obtain ⟨queue, -, rfl⟩ := Option.map_eq_some_iff.mp hwrite
    exact hrest .client rest hnil hrelay
  case h_3 => cases hwrite

theorem step_tracks (world : World) {event : DuplexEvent}
    (hstep : step P served s event = some s') (h : Tracks P served ctx s.session s.relay c) :
    ∃ events, Tracks P served ctx s'.session s'.relay
      (Machine.run (Connection.step P ctx) c events) := by
  cases event with
  | clientSends bytes =>
      obtain ⟨queue, -, rfl⟩ := Option.map_eq_some_iff.mp hstep
      exact ⟨[], h⟩
  | clientReceives n =>
      obtain ⟨taken, -, rfl⟩ := Option.map_eq_some_iff.mp hstep
      exact ⟨[], h⟩
  | targetEchoes n =>
      obtain ⟨taken, -, hput⟩ := Option.bind_eq_some_iff.mp hstep
      obtain ⟨queue, -, rfl⟩ := Option.map_eq_some_iff.mp hput
      exact ⟨[], h⟩
  | relayReads peer n => exact read_tracks world hstep h
  | relayWrites n => exact write_tracks hstep h
  | limiterGrants =>
      simp only [step] at hstep
      split at hstep
      case h_1 peer data hrelay =>
        cases hstep
        rw [hrelay] at h
        have hall : Pending P served ctx peer ([] ++ data) s.session c := h
        exact hall.tracks
      case h_2 => cases hstep
  | idleTimeout =>
      simp only [step] at hstep
      split at hstep
      case h_1 hrelay =>
        cases hstep
        rw [hrelay] at h
        refine ⟨[.idle], ?_⟩
        have hphase : c.phase = .relay s.session served := h
        rw [Machine.run_cons, Connection.step, hphase]
        rfl
      case h_2 => cases hstep
  | writeTimeout =>
      simp only [step] at hstep
      split at hstep
      case h_1 peer rest hnil hrelay =>
        cases hstep
        rw [hrelay] at h
        obtain ⟨sent, event, -, -, htimeout⟩ := h
        exact ⟨[event (.timedOut sent.length)], htimeout sent.length⟩
      case h_2 => cases hstep

/-- Every run of the loop between its peers is a run of `handle_stream`: the same turns,
with the same session, the same bytes written and the same end. -/
theorem run_tracks (world : World) {events : List DuplexEvent}
    (hrun : run P served s events = some s') (h : Tracks P served ctx s.session s.relay c) :
    ∃ inputs, Tracks P served ctx s'.session s'.relay
      (Machine.run (Connection.step P ctx) c inputs) := by
  induction events generalizing s c with
  | nil =>
      cases hrun
      exact ⟨[], h⟩
  | cons event events ih =>
      obtain ⟨next, hnext, hrest⟩ := Option.bind_eq_some_iff.mp hrun
      obtain ⟨first, hfirst⟩ := step_tracks world hnext h
      obtain ⟨later, hlater⟩ := ih hrest hfirst
      refine ⟨first ++ later, ?_⟩
      rw [Machine.run_append]
      exact hlater

end Tracking

/-- Bytes that are on their way can move in every state, up to the one case in which the
relay waits for the target and the target for the relay. That wait ends only by the write
timeout, and takes more bytes than the two sockets of the target hold. -/
theorem stalls_only_in_circular_wait (P : Primitives) (served : Served) (s : Duplex caps) :
    (s.Open → s.Undelivered →
      ((∃ event : DuplexEvent, event.delivers = true ∧ Enabled P served s event) ↔
        ¬ (s.CircularWait ∧ s.toClient.items = []))) ∧
    (s.CircularWait →
      caps.toRemote + caps.fromRemote < s.atTarget ∧ Enabled P served s .writeTimeout ∧
      ∀ events s', (∀ event ∈ events, event.isTimeout = false) →
        run P served s events = some s' → s'.CircularWait ∧ s'.relay = s.relay ∧
          s'.toRemote = s.toRemote ∧ s'.fromRemote = s.fromRemote) := by
  refine ⟨?_, ?_⟩
  · intro hopen hbytes
    constructor
    · rintro ⟨event, hdelivers, henabled⟩ ⟨hwait, hread⟩
      rcases hwait.enabled henabled with ⟨bytes, rfl⟩ | ⟨n, rfl⟩ | rfl
      · cases hdelivers
      · have hreceives := enabled_clientReceives.mp henabled
        rw [hread, List.length_nil] at hreceives
        omega
      · cases hdelivers
    · intro hnot
      exact (delivers_or_circular hopen hbytes).resolve_right hnot
  · intro hwait
    refine ⟨hwait.atTarget_gt, ?_, ?_⟩
    · obtain ⟨rest, hrest, hrelay⟩ := hwait.writing
      exact enabled_writeTimeout.mpr ⟨.remote, rest, hrest, hrelay⟩
    · intro events s' hevents hrun
      have hsame := hwait.run_same hevents hrun
      exact ⟨hsame.circular hwait, hsame.relay_eq, hsame.toRemote_eq, hsame.fromRemote_eq⟩

section Stall

open ClientCodec

/-- Sockets to and from the target that hold one byte. -/
def stallCaps : Capacities where
  fromClient := 12
  toRemote := 1
  fromRemote := 1
  toClient := 1
  fromClient_pos := by decide
  toRemote_pos := by decide
  fromRemote_pos := by decide
  toClient_pos := by decide

def stallServed : Served := ⟨0, 0, none, none⟩

/-- The session after the client's first packet. -/
def stallSession : ServerSession :=
  ((ServerSession.decrypt .standard (testClient.wire .standard (testHello 0) [10] [])).run
    testSession).2

/-- The client's next packet, with three bytes for the target. -/
def stallPacket : List UInt8 :=
  clientSendAll .standard (testClient.clientFirstSend .standard (testHello 0) [10]).2
    [(.minimal, [1, 2, 3])]

theorem stallPacket_length : stallPacket.length = 12 := by
  rw [stallPacket, clientSendAll_eq, StreamCipher.length_process]
  exact length_flatten_packUnits _ _ _ [[1, 2, 3]]

theorem stallSession_decrypt :
    ((ServerSession.decrypt .standard stallPacket).run stallSession).1 = .ok [1, 2, 3] := by
  have hfirst := ServerSession.decrypt_took testSession_fresh.took
    (testClient.wire .standard (testHello 0) [10] [])
  rw [List.nil_append, testSession_decoded (by decide) (by decide)] at hfirst
  obtain ⟨-, -, -, htook⟩ := hfirst
  have hset := ServerSession.decrypt_settings (P := .standard) testSession_fresh.took.masterKey_length
    (testClient.wire .standard (testHello 0) [10] [])
  have hwire : testClient.wire .standard (testHello 0) [10] [] ++ stallPacket =
      testClient.wire .standard (testHello 0) [10] [(.minimal, [1, 2, 3])] := by
    simp [wire, stallPacket, clientSendAll]
  have hnext := ServerSession.decrypt_took htook stallPacket
  rw [ServerSession.decoded_settings hset, hwire, testSession_decoded (by decide) (by decide)] at hnext
  obtain ⟨out, hout, hcall, -⟩ := hnext
  have hbytes : out = [1, 2, 3] := by simpa using hout.symm
  rw [← hbytes]
  exact hcall

/-- The relay reads the packet and writes as much as the target takes; the client fills
its socket meanwhile. -/
def stallEvents : List DuplexEvent :=
  [.clientSends stallPacket, .relayReads .client 12, .relayWrites 1, .targetEchoes 1,
    .relayWrites 1, .clientSends (List.replicate 12 0)]

def stalled : Duplex stallCaps where
  session := ((ServerSession.decrypt .standard stallPacket).run stallSession).2
  relay := .writing .remote [3] (List.cons_ne_nil _ _)
  fromClient := ⟨List.replicate 12 0, by decide⟩
  toRemote := ⟨[2], by decide⟩
  fromRemote := ⟨[1], by decide⟩
  toClient := .empty

theorem stallPacket_ne_nil : stallPacket ≠ [] := by
  apply List.ne_nil_of_length_pos
  rw [stallPacket_length]
  decide

/-- The packet is in the socket. -/
def stallSent : Duplex stallCaps :=
  { start stallSession with fromClient := ⟨stallPacket, Nat.le_of_eq stallPacket_length⟩ }

/-- The relay has read it. -/
def stallRead : Duplex stallCaps :=
  { start ((ServerSession.decrypt .standard stallPacket).run stallSession).2 with
    relay := .writing .remote [1, 2, 3] (List.cons_ne_nil _ _) }

theorem step_stallSent :
    step .standard stallServed (start stallSession) (.clientSends stallPacket) =
      some stallSent := by
  have hroom : (BoundedQueue.empty : BoundedQueue UInt8 stallCaps.fromClient).items.length +
      stallPacket.length ≤ stallCaps.fromClient := by
    rw [stallPacket_length]
    decide
  obtain ⟨fits, hput⟩ := BoundedQueue.put_of_fits stallPacket_ne_nil hroom
  simp only [step, start, hput]
  rfl

theorem step_stallRead :
    step .standard stallServed stallSent (.relayReads .client 12) = some stallRead := by
  have hitems : stallSent.fromClient.items = stallPacket ++ [] := (List.append_nil _).symm
  obtain ⟨fits, htake⟩ := BoundedQueue.take_of_items hitems stallPacket_ne_nil
  rw [stallPacket_length] at htake
  have harm : RelayPhase.onClient .standard stallServed stallSession stallPacket =
      .writing .remote [1, 2, 3] (List.cons_ne_nil _ _) := by
    rw [RelayPhase.onClient, stallSession_decrypt]
    rfl
  have hselecting : stallSent.relay = .selecting := rfl
  have hsession : stallSent.session = stallSession := rfl
  simp only [step, read, hselecting, htake, Option.map_some, hsession, harm]
  rw [if_pos (show 12 ≤ readChunk by decide)]
  rfl

theorem run_stallEvents :
    run .standard stallServed (start stallSession) stallEvents = some stalled := by
  rw [run, stallEvents, Machine.tryRun_cons _ step_stallSent, Machine.tryRun_cons _ step_stallRead]
  rfl

/-- The relay waits for a target that waits for the relay, and nothing but the timeout
can happen. -/
theorem echo_stalls :
    run .standard stallServed (start stallSession) stallEvents = some stalled ∧
      stalled.Open ∧ stalled.Undelivered ∧ stalled.CircularWait ∧
      ∀ event, Enabled .standard stallServed stalled event → event.isTimeout = true := by
  have hwait : stalled.CircularWait := ⟨⟨[3], List.cons_ne_nil _ _, rfl⟩, rfl, rfl⟩
  refine ⟨run_stallEvents, nofun, Or.inr (Or.inl (List.cons_ne_nil _ _)), hwait, ?_⟩
  intro event henabled
  rcases hwait.enabled henabled with ⟨bytes, rfl⟩ | ⟨n, rfl⟩ | rfl
  · obtain ⟨hbytes, hroom⟩ := enabled_clientSends.mp henabled
    have hfull : stalled.fromClient.items.length = stallCaps.fromClient := rfl
    have hpos := List.length_pos_iff.mpr hbytes
    omega
  · have hreceives := enabled_clientReceives.mp henabled
    have hread : stalled.toClient.items.length = 0 := rfl
    omega
  · rfl

end Stall

end Duplex

end SsrBackend
