import SsrBackend.Foundation.Arena
import SsrBackend.Traffic.UserIpSet

/-!
The ledgers of `traffic.rs`. Each keeps one shared object for each user of the
last poll. A relay task holds the handle it got at its start, so it goes on
recording on an object whose user has left the ledger. Counters are `AtomicU64`
and wrap; the traffic ledger also has the checkpoint of the last acknowledged
report.
-/

namespace SsrBackend

structure UserCounters where
  upload : Nat := 0
  download : Nat := 0
  deriving DecidableEq, Repr

structure CounterSnapshot where
  upload : Nat := 0
  download : Nat := 0
  deriving DecidableEq, Repr

namespace UserCounters

def recordUpload (bytes : Nat) (c : UserCounters) : UserCounters :=
  { c with upload := (c.upload + bytes) % 2 ^ 64 }

def recordDownload (bytes : Nat) (c : UserCounters) : UserCounters :=
  { c with download := (c.download + bytes) % 2 ^ 64 }

def snapshot (c : UserCounters) : CounterSnapshot := ⟨c.upload, c.download⟩

end UserCounters

structure TrafficDelta where
  userId : Nat
  upload : Nat
  download : Nat
  checkpoint : CounterSnapshot
  deriving DecidableEq, Repr

structure TrafficLedger where
  counters : Registry Nat UserCounters
  checkpoints : Std.HashMap Nat CounterSnapshot

namespace TrafficLedger

def empty : TrafficLedger := ⟨.empty, ∅⟩

def ensureUser (l : TrafficLedger) (userId : Nat) : Nat × TrafficLedger :=
  match l.counters.entries[userId]? with
  | some h => (h, l)
  | none =>
      let r := l.counters.ensure userId {} id
      (r.1, ⟨r.2, l.checkpoints.insertIfNew userId {}⟩)

def removeStaleUsers (l : TrafficLedger) (live : Nat → Bool) : TrafficLedger :=
  ⟨l.counters.retain live, l.checkpoints.filter fun userId _ => live userId⟩

/-- The values of a counter; every handle that was given out has one. -/
def snapshot (l : TrafficLedger) (h : Nat) : CounterSnapshot :=
  ((l.counters.objects.get? h).map UserCounters.snapshot).getD {}

def checkpoint (l : TrafficLedger) (userId : Nat) : CounterSnapshot :=
  l.checkpoints.getD userId {}

/-- What is to be reported for one entry; `-` is `saturating_sub` here. -/
def delta (l : TrafficLedger) (userId h : Nat) : TrafficDelta :=
  let current := l.snapshot h
  let checkpoint := l.checkpoint userId
  ⟨userId, current.upload - checkpoint.upload, current.download - checkpoint.download, current⟩

def pendingDeltas (l : TrafficLedger) : List TrafficDelta :=
  (l.counters.entries.toList.map fun entry => l.delta entry.1 entry.2).filter fun delta =>
    0 < delta.upload ∨ 0 < delta.download

/-- One turn of the loop of `mark_reported`. -/
def markOne (l : TrafficLedger) (delta : TrafficDelta) : TrafficLedger :=
  if delta.userId ∈ l.counters.entries then
    { l with checkpoints := l.checkpoints.insert delta.userId delta.checkpoint }
  else l

def markReported (l : TrafficLedger) (deltas : List TrafficDelta) : TrafficLedger :=
  deltas.foldl markOne l

/-- A relay task records on the counter it holds. -/
def record (l : TrafficLedger) (h : Nat) (f : UserCounters → UserCounters) : TrafficLedger :=
  { l with counters := { l.counters with objects := l.counters.objects.modify h f } }

end TrafficLedger

/-- The IP sets of the users, for the device limit. -/
abbrev ConnLedger : Type := Registry Nat UserIpSet

def ConnLedger.ensureUser (l : ConnLedger) (userId : Nat) : Nat × ConnLedger :=
  l.ensure userId ∅ id

/-- The rate limiters of the users; of a bucket only the rate is set by the ledger. -/
abbrev SpeedLedger : Type := Registry Nat Nat

def SpeedLedger.ensureUser (l : SpeedLedger) (userId rateBps : Nat) : Nat × SpeedLedger :=
  l.ensure userId rateBps fun _ => rateBps

end SsrBackend
