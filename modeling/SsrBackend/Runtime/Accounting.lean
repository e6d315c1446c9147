import SsrBackend.Foundation.Budget
import SsrBackend.Runtime.Tables
import SsrBackend.Traffic.LedgerLaws

/-!
The bytes of the users, from the relays to the panel. The supervisor is one task,
so a poll and a report never overlap; the relays record at any moment, also while
the POST of a report is under way, and on any handle that was ever published. A
poll is one step here: what is recorded while it runs is read by nothing in it.
-/

namespace SsrBackend

/-- Bytes that a relay has recorded, with the user whose handle it holds. -/
structure Record where
  userId : Nat
  handle : Handle
  direction : Direction
  bytes : Nat

/-- The runtime, the snapshots it has published and the deltas it waits for the answer
to; and what has happened so far: the records and the acknowledged reports. -/
structure Accounting where
  runtime : BackendRuntime
  published : List UserTables
  inFlight : Option (List TrafficDelta)
  records : List Record
  reports : List (List TrafficDelta)

/-- A relay records on the handle of a user in a snapshot; `sync_users`; `report_traffic`
up to its POST, and the panel's answer to it. -/
inductive AccountingEvent where
  | record (snapshot userId : Nat) (direction : Direction) (bytes : Nat)
  | sync (answer : Except String (List PanelUser))
  | report
  | answered (answer : Except String Unit)

/-- The bytes that an event asks to record. -/
def AccountingEvent.bytes : AccountingEvent → Nat
  | .record _ _ _ bytes => bytes
  | _ => 0

namespace Accounting

variable (P : Primitives) (fromUser : PanelUser → UserPolicy)

def start (config : Config) : Accounting := ⟨.new config, [UserTables.empty], none, [], []⟩

def ledger (s : Accounting) : TrafficLedger := s.runtime.traffic

def setLedger (s : Accounting) (l : TrafficLedger) : Accounting :=
  { s with runtime := { s.runtime with traffic := l } }

/-- The counter of a user in a snapshot. -/
def handle? (s : Accounting) (snapshot userId : Nat) : Option Handle :=
  s.published[snapshot]?.bind fun tables => tables.countersByUser[userId]?

/-- A relay records on a handle of a user. -/
def recordOn (s : Accounting) (r : Record) : Accounting :=
  { s.setLedger (s.ledger.record r.handle (UserCounters.recordBytes r.bytes r.direction)) with
    records := s.records ++ [r] }

/-- The runtime after a poll, with its snapshot. -/
def publish (s : Accounting) (rt : BackendRuntime) : Accounting :=
  { s with runtime := rt, published := s.published ++ [rt.tables] }

/-- `mark_reported`. -/
def acknowledge (s : Accounting) (deltas : List TrafficDelta) : Accounting :=
  { s.setLedger (s.ledger.markReported deltas) with
    inFlight := none
    reports := s.reports ++ [deltas] }

/-- The end of `report_traffic`; a failed POST leaves it by `?`. -/
def conclude (s : Accounting) (deltas : List TrafficDelta) : Except String Unit → Accounting
  | .error _ => { s with inFlight := none }
  | .ok _ => s.acknowledge deltas

/-- An event that the supervisor does not wait for leaves it where it is. -/
def step (s : Accounting) : AccountingEvent → Accounting
  | .record snapshot userId direction bytes =>
      match s.handle? snapshot userId with
      | none => s
      | some h => s.recordOn ⟨userId, h, direction, bytes⟩
  | .sync answer =>
      match s.inFlight with
      | some _ => s
      | none => s.publish (BackendRuntime.synced P fromUser answer s.runtime)
  | .report =>
      match s.inFlight with
      | some _ => s
      | none =>
          let deltas := s.ledger.pendingDeltas
          { s with inFlight := if deltas = [] then none else some deltas }
  | .answered answer =>
      match s.inFlight with
      | none => s
      | some deltas => s.conclude deltas answer

/-- What has been recorded on the handles of a user. -/
def recorded (s : Accounting) (u : Nat) (d : Direction) : Nat :=
  tally (fun r => (r.userId, r.direction)) Record.bytes (u, d) s.records

/-- What has been recorded on one handle. -/
def recordedOn (s : Accounting) (h : Handle) (d : Direction) : Nat :=
  tally (fun r => (r.handle, r.direction)) Record.bytes (h, d) s.records

/-- What the panel has acknowledged for a user. -/
def acknowledged (s : Accounting) (u : Nat) (d : Direction) : Nat :=
  tally TrafficDelta.userId (·.get d) u s.reports.flatten

/-- The counter that the ledger has for a user. -/
def counter? (s : Accounting) (u : Nat) : Option Handle := s.ledger.counters.entries[u]?

/-- What a record adds to the bytes that no later report can reach. -/
def lostOn (s : Accounting) (r : Record) (u : Nat) (d : Direction) : Nat :=
  if (r.userId, r.direction) = (u, d) ∧ s.counter? u ≠ some r.handle then r.bytes else 0

/-- What a step takes out of the reach of every later report: the bytes that are pending when
a poll is applied that does not list the user, and those that a relay records on a counter
that is no longer the user's. -/
def lostBy (u : Nat) (d : Direction) (s : Accounting) : AccountingEvent → Nat
  | .record snapshot userId direction bytes =>
      match s.handle? snapshot userId with
      | none => 0
      | some h => s.lostOn ⟨userId, h, direction, bytes⟩ u d
  | .sync (.ok users) =>
      if s.inFlight.isNone ∧ users.length ≤ s.runtime.config.limits.maxUsers ∧
        ¬BackendRuntime.isLive users u then s.ledger.pending u d else 0
  | _ => 0

/-- What a run has lost. -/
def lostIn (u : Nat) (d : Direction) (s : Accounting) (events : List AccountingEvent) : Nat :=
  Machine.total (step P fromUser) (lostBy u d) s events

/-- The books of a node. A counter holds what was recorded on it, modulo `2^64`; where that
has not wrapped, what a user has recorded is acknowledged, lost, or still ahead of its
checkpoint. -/
structure Sound (s : Accounting) (owner : Nat → Nat) (lost : Nat → Direction → Nat) : Prop where
  owned : s.ledger.counters.Owned owner
  aligned : s.ledger.Aligned
  current : s.runtime.tables ∈ s.published
  published : ∀ tables ∈ s.published, ∀ u h : Nat, tables.countersByUser[u]? = some h →
    h < s.ledger.counters.objects.size ∧ owner h = u
  known : ∀ r ∈ s.records, r.handle < s.ledger.counters.objects.size ∧ owner r.handle = r.userId
  value : ∀ h d, (s.ledger.snapshot h).get d = s.recordedOn h d % 2 ^ 64
  live : ∀ u d h, s.recorded u d < 2 ^ 64 → s.counter? u = some h →
    (s.ledger.checkpoint u).get d ≤ s.recordedOn h d ∧
    s.recorded u d + (s.ledger.checkpoint u).get d =
      s.acknowledged u d + lost u d + s.recordedOn h d
  gone : ∀ u d, s.recorded u d < 2 ^ 64 → s.counter? u = none →
    s.recorded u d = s.acknowledged u d + lost u d
  distinct : ∀ deltas, s.inFlight = some deltas → (deltas.map TrafficDelta.userId).Nodup
  pending : ∀ deltas, s.inFlight = some deltas → ∀ delta ∈ deltas, ∃ h,
    s.counter? delta.userId = some h ∧ ∀ d, s.recorded delta.userId d < 2 ^ 64 →
      delta.get d + (s.ledger.checkpoint delta.userId).get d = delta.checkpoint.get d ∧
      delta.checkpoint.get d ≤ s.recordedOn h d

variable {P fromUser} {s : Accounting} {owner : Nat → Nat} {lost : Nat → Direction → Nat}

theorem Sound.entry {u h : Nat} (hs : s.Sound owner lost) (hentry : s.counter? u = some h) :
    h < s.ledger.counters.objects.size ∧ owner h = u := hs.owned u h hentry

/-- On the counter of a user only its own bytes are recorded. -/
theorem Sound.recordedOn_le {u h : Nat} (hs : s.Sound owner lost) (hentry : s.counter? u = some h)
    (d : Direction) : s.recordedOn h d ≤ s.recorded u d := by
  apply tally_le_tally
  intro r hr hkey
  obtain ⟨rfl, rfl⟩ := Prod.mk.inj hkey
  rw [← (hs.known r hr).2, (hs.entry hentry).2]

theorem Sound.recordedOn_new {h : Nat} (hs : s.Sound owner lost)
    (hnew : s.ledger.counters.objects.size ≤ h) (d : Direction) : s.recordedOn h d = 0 := by
  apply tally_of_not_mem
  intro hmem
  obtain ⟨r, hr, hkey⟩ := List.mem_map.mp hmem
  have hhandle : r.handle = h := congrArg Prod.fst hkey
  have hlt := (hs.known r hr).1
  rw [hhandle] at hlt
  exact absurd hlt (Nat.not_lt.mpr hnew)

/-- What is pending for a user is what its counter is ahead of its checkpoint. -/
theorem Sound.pending_eq {u h : Nat} (hs : s.Sound owner lost) (hentry : s.counter? u = some h)
    {d : Direction} (hsmall : s.recorded u d < 2 ^ 64) :
    s.ledger.pending u d = s.recordedOn h d - (s.ledger.checkpoint u).get d := by
  have hle := hs.recordedOn_le hentry d
  rw [TrafficLedger.pending_of_entry hentry, hs.value, Nat.mod_eq_of_lt (by omega)]

/-- The books balance. -/
theorem Sound.balance (hs : s.Sound owner lost) {u : Nat} {d : Direction}
    (hsmall : s.recorded u d < 2 ^ 64) :
    s.recorded u d = s.acknowledged u d + s.ledger.pending u d + lost u d := by
  cases hentry : s.counter? u with
  | none =>
      have hgone := hs.gone u d hsmall hentry
      rw [TrafficLedger.pending_of_none hentry]
      omega
  | some h =>
      obtain ⟨hle, hlive⟩ := hs.live u d h hsmall hentry
      rw [hs.pending_eq hentry hsmall]
      omega

/-! ### The steps -/

theorem start_sound (config : Config) : (start config).Sound (fun _ => 0) fun _ _ => 0 := by
  have hentry (u : Nat) : (start config).counter? u = none := Std.HashMap.getElem?_empty
  refine ⟨?_, fun u _ => Std.HashMap.getD_empty, List.mem_singleton_self _, ?_, nofun, ?_, ?_,
    fun _ _ _ _ => rfl, nofun, nofun⟩
  · intro u h hsome
    exact absurd (hsome.symm.trans (hentry u)) nofun
  · intro tables hmem u h hsome
    rw [List.mem_singleton.mp hmem] at hsome
    exact absurd (hsome.symm.trans Std.HashMap.getElem?_empty) nofun
  · intro h d
    cases d <;> rfl
  · intro u d h _ hsome
    exact absurd (hsome.symm.trans (hentry u)) nofun

section Record

theorem recorded_recordOn (r : Record) (u : Nat) (d : Direction) :
    (s.recordOn r).recorded u d =
      s.recorded u d + if (r.userId, r.direction) = (u, d) then r.bytes else 0 :=
  tally_concat _ _

theorem recordedOn_recordOn (r : Record) (h : Handle) (d : Direction) :
    (s.recordOn r).recordedOn h d =
      s.recordedOn h d + if (r.handle, r.direction) = (h, d) then r.bytes else 0 :=
  tally_concat _ _

theorem size_recordOn (r : Record) :
    (s.recordOn r).ledger.counters.objects.size = s.ledger.counters.objects.size :=
  Arena.size_modify ..

theorem Sound.handle (hs : s.Sound owner lost) {snapshot v h : Nat}
    (hhandle : s.handle? snapshot v = some h) :
    h < s.ledger.counters.objects.size ∧ owner h = v := by
  obtain ⟨tables, htables, hentry⟩ := Option.bind_eq_some_iff.mp hhandle
  exact hs.published tables (List.mem_of_getElem? htables) v h hentry

/-- A record on a counter is a record of the counter's user, and of no other one. -/
theorem Sound.key_iff (hs : s.Sound owner lost) {r : Record} (howner : owner r.handle = r.userId)
    {u h : Nat} (hentry : s.counter? u = some h) (d : Direction) :
    (r.handle, r.direction) = (h, d) ↔
      (r.userId, r.direction) = (u, d) ∧ s.counter? u = some r.handle := by
  constructor
  · intro hkey
    obtain ⟨hhandle, hdirection⟩ := Prod.mk.inj hkey
    rw [hhandle, (hs.entry hentry).2] at howner
    rw [hhandle, hdirection, ← howner]
    exact ⟨rfl, howner ▸ hentry⟩
  · rintro ⟨hkey, hsame⟩
    rw [hentry] at hsame
    have hdirection : r.direction = d := congrArg Prod.snd hkey
    rw [Option.some.inj hsame, hdirection]

/-- The bytes of the user reach its counter, or are lost. -/
theorem recordOn_live (hs : s.Sound owner lost) {r : Record} (howner : owner r.handle = r.userId)
    {u : Nat} {d : Direction} (hsmall : (s.recordOn r).recorded u d < 2 ^ 64) {h : Nat}
    (hentry : s.counter? u = some h) :
    (s.ledger.checkpoint u).get d ≤ (s.recordOn r).recordedOn h d ∧
      (s.recordOn r).recorded u d + (s.ledger.checkpoint u).get d =
        s.acknowledged u d + (lost u d + s.lostOn r u d) + (s.recordOn r).recordedOn h d := by
  have hkey := hs.key_iff howner hentry d
  rw [recorded_recordOn] at hsmall
  obtain ⟨hle, hlive⟩ := hs.live u d h (by omega) hentry
  rw [recorded_recordOn, recordedOn_recordOn, lostOn]
  by_cases huser : (r.userId, r.direction) = (u, d)
  · by_cases hsame : s.counter? u = some r.handle
    · rw [if_pos huser, if_pos (hkey.mpr ⟨huser, hsame⟩), if_neg fun h => h.2 hsame]
      omega
    · rw [if_pos huser, if_neg fun h => hsame (hkey.mp h).2, if_pos ⟨huser, hsame⟩]
      omega
  · rw [if_neg huser, if_neg fun h => huser (hkey.mp h).1, if_neg fun h => huser h.1]
    omega

/-- What is recorded for a user without a counter is lost. -/
theorem recordOn_gone (hs : s.Sound owner lost) (r : Record) {u : Nat} {d : Direction}
    (hsmall : (s.recordOn r).recorded u d < 2 ^ 64) (hentry : s.counter? u = none) :
    (s.recordOn r).recorded u d = s.acknowledged u d + (lost u d + s.lostOn r u d) := by
  rw [recorded_recordOn] at hsmall ⊢
  have hgone := hs.gone u d (by omega) hentry
  have hnone : s.counter? u ≠ some r.handle := by
    intro hsame
    exact absurd (hsame.symm.trans hentry) nofun
  rw [lostOn]
  by_cases huser : (r.userId, r.direction) = (u, d)
  · rw [if_pos huser, if_pos ⟨huser, hnone⟩]
    omega
  · rw [if_neg huser, if_neg fun h => huser h.1]
    omega

theorem recordOn_sound (hs : s.Sound owner lost) {r : Record}
    (hlt : r.handle < s.ledger.counters.objects.size) (howner : owner r.handle = r.userId) :
    (s.recordOn r).Sound owner fun u d => lost u d + s.lostOn r u d := by
  refine ⟨?_, hs.aligned, hs.current, ?_, ?_, ?_, ?_, ?_, hs.distinct, ?_⟩
  · intro u h hentry
    rw [size_recordOn]
    exact hs.owned u h hentry
  · intro tables hmem u h hentry
    rw [size_recordOn]
    exact hs.published tables hmem u h hentry
  · intro r' hr'
    rw [size_recordOn]
    cases List.mem_append.mp hr' with
    | inl hold => exact hs.known r' hold
    | inr hnew =>
        rw [List.mem_singleton.mp hnew]
        exact ⟨hlt, howner⟩
  · intro h d
    rw [recordedOn_recordOn]
    refine (TrafficLedger.snapshot_record hlt r.bytes r.direction h d).trans ?_
    rw [hs.value]
    split
    · exact Nat.mod_add_mod ..
    · rfl
  · intro u d h hsmall hentry
    exact recordOn_live hs howner hsmall hentry
  · intro u d hsmall hentry
    exact recordOn_gone hs r hsmall hentry
  · intro deltas hdeltas delta hmem
    obtain ⟨h, hentry, hpending⟩ := hs.pending deltas hdeltas delta hmem
    refine ⟨h, hentry, ?_⟩
    intro d hsmall
    rw [recorded_recordOn] at hsmall
    obtain ⟨heq, hle⟩ := hpending d (by omega)
    refine ⟨heq, ?_⟩
    rw [recordedOn_recordOn]
    omega

end Record

section Sync

variable (P fromUser)

/-- A poll takes no counter from its owner, changes none and meets no stale checkpoint. -/
theorem registerUsers_traffic (users : List PanelUser) {acc : BackendRuntime × UserTables}
    (h : acc.1.traffic.counters.Owned owner) (haligned : acc.1.traffic.Aligned) :
    ∃ owner', TrafficLedger.Grown acc.1.traffic owner
      (users.foldl (BackendRuntime.registerUser P fromUser) acc).1.traffic owner' := by
  induction users generalizing acc owner with
  | nil => exact ⟨owner, .refl h haligned⟩
  | cons user users ih =>
      obtain ⟨owner', hfirst⟩ := TrafficLedger.ensureUser_grown h haligned user.userId
      have hnext : (BackendRuntime.registerUser P fromUser acc user).1.traffic =
          (acc.1.traffic.ensureUser user.userId).2 := rfl
      rw [← hnext] at hfirst
      obtain ⟨owner'', hrest⟩ := ih hfirst.owned hfirst.aligned
      exact ⟨owner'', hfirst.trans hrest⟩

theorem synced_traffic {rt : BackendRuntime} (h : rt.traffic.counters.Owned owner)
    (haligned : rt.traffic.Aligned) (answer : Except String (List PanelUser)) :
    ∃ owner', TrafficLedger.Grown rt.traffic owner
      (BackendRuntime.synced P fromUser answer rt).traffic owner' := by
  rcases BackendRuntime.synced_cases P fromUser answer rt with hsame | ⟨users, -, happly⟩
  · rw [hsame]
    exact ⟨owner, .refl h haligned⟩
  · have hacc : (rt, UserTables.empty).1.traffic.counters.Owned owner := h
    have hacc' : (rt, UserTables.empty).1.traffic.Aligned := haligned
    obtain ⟨owner', hgrown⟩ := registerUsers_traffic P fromUser users hacc hacc'
    rw [happly, (BackendRuntime.applyUsers_ledgers P fromUser users rt).traffic_eq]
    have hstale := TrafficLedger.removeStaleUsers_grown hgrown.owned hgrown.aligned
      (BackendRuntime.isLive users)
    exact ⟨owner', hgrown.trans hstale⟩

/-- The snapshot of a poll has the counters of the ledger. -/
theorem synced_table (answer : Except String (List PanelUser)) (rt : BackendRuntime) :
    (BackendRuntime.synced P fromUser answer rt).tables = rt.tables ∨
      ∀ u : Nat, (BackendRuntime.synced P fromUser answer rt).tables.countersByUser[u]? =
        (BackendRuntime.synced P fromUser answer rt).traffic.counters.entries[u]? := by
  rcases BackendRuntime.synced_cases P fromUser answer rt with hsame | ⟨users, -, happly⟩
  · exact Or.inl (congrArg BackendRuntime.tables hsame)
  · right
    rw [happly]
    exact (BackendRuntime.applyUsers_serving P fromUser users rt).counters.table_eq

variable {P fromUser}

/-- What a user loses when its counter goes, or is replaced. -/
def dropped (s : Accounting) (rt : BackendRuntime) (u : Nat) (d : Direction) : Nat :=
  if rt.traffic.counters.entries[u]? = s.counter? u then 0 else s.ledger.pending u d

theorem publish_live {rt : BackendRuntime} {owner' : Nat → Nat} (hs : s.Sound owner lost)
    (hgrown : TrafficLedger.Grown s.ledger owner rt.traffic owner') {u : Nat} {d : Direction}
    (hsmall : s.recorded u d < 2 ^ 64) {h : Nat}
    (hentry : rt.traffic.counters.entries[u]? = some h) :
    (rt.traffic.checkpoint u).get d ≤ s.recordedOn h d ∧
      s.recorded u d + (rt.traffic.checkpoint u).get d =
        s.acknowledged u d + (lost u d + s.dropped rt u d) + s.recordedOn h d := by
  rcases hgrown.entry u h hentry with ⟨hkept, hcheckpoint⟩ | ⟨hnew, hcheckpoint⟩
  · have hlive := hs.live u d h hsmall hkept
    have hsame : rt.traffic.counters.entries[u]? = s.counter? u := hentry.trans hkept.symm
    rw [hcheckpoint, dropped, if_pos hsame]
    exact hlive
  · have hbalance := hs.balance hsmall
    have hdropped : s.dropped rt u d = s.ledger.pending u d := by
      unfold dropped
      split
      · rename_i hsame
        have hknown := (hs.entry (hsame.symm.trans hentry)).1
        omega
      · rfl
    rw [hcheckpoint, hdropped, hs.recordedOn_new hnew, CounterSnapshot.get_default]
    omega

theorem publish_gone {rt : BackendRuntime} (hs : s.Sound owner lost) {u : Nat} {d : Direction}
    (hsmall : s.recorded u d < 2 ^ 64) (hentry : rt.traffic.counters.entries[u]? = none) :
    s.recorded u d = s.acknowledged u d + (lost u d + s.dropped rt u d) := by
  have hbalance := hs.balance hsmall
  unfold dropped
  split
  · rename_i hsame
    rw [TrafficLedger.pending_of_none (hsame.symm.trans hentry)] at hbalance
    omega
  · omega

theorem publish_sound {rt : BackendRuntime} {owner' : Nat → Nat} (hs : s.Sound owner lost)
    (hidle : s.inFlight = none)
    (hgrown : TrafficLedger.Grown s.ledger owner rt.traffic owner')
    (htables : rt.tables ∈ s.published ∨
      ∀ u : Nat, rt.tables.countersByUser[u]? = rt.traffic.counters.entries[u]?) :
    (s.publish rt).Sound owner' fun u d => lost u d + s.dropped rt u d := by
  have hold : ∀ u h : Nat, h < s.ledger.counters.objects.size ∧ owner h = u →
      h < rt.traffic.counters.objects.size ∧ owner' h = u := by
    intro u h hknown
    exact ⟨Nat.lt_of_lt_of_le hknown.1 hgrown.size_le,
      (hgrown.owner_eq h hknown.1).trans hknown.2⟩
  have hnone : (s.publish rt).inFlight = none := hidle
  refine ⟨hgrown.owned, hgrown.aligned, List.mem_append_right _ (List.mem_singleton_self _), ?_,
    ?_, ?_, ?_, ?_, ?_, ?_⟩
  · intro tables hmem u h hentry
    cases List.mem_append.mp hmem with
    | inl hearlier => exact hold u h (hs.published tables hearlier u h hentry)
    | inr hlast =>
        rw [List.mem_singleton.mp hlast] at hentry
        cases htables with
        | inl hsame => exact hold u h (hs.published _ hsame u h hentry)
        | inr hserving => exact hgrown.owned u h ((hserving u).symm.trans hentry)
  · intro r hr
    exact hold r.userId r.handle (hs.known r hr)
  · intro h d
    have hsame : (s.publish rt).ledger.snapshot h = s.ledger.snapshot h := hgrown.snapshot_eq h
    rw [hsame]
    exact hs.value h d
  · intro u d h hsmall hentry
    exact publish_live hs hgrown hsmall hentry
  · intro u d hsmall hentry
    exact publish_gone hs hsmall hentry
  · intro deltas hdeltas
    rw [hnone] at hdeltas
    cases hdeltas
  · intro deltas hdeltas
    rw [hnone] at hdeltas
    cases hdeltas

variable (P fromUser)

theorem registerUsers_entry (users : List PanelUser) {acc : BackendRuntime × UserTables}
    {u h : Nat} (hentry : acc.1.traffic.counters.entries[u]? = some h) :
    (users.foldl (BackendRuntime.registerUser P fromUser) acc).1.traffic.counters.entries[u]? =
      some h := by
  induction users generalizing acc with
  | nil => exact hentry
  | cons user users ih =>
      apply ih
      exact acc.1.traffic.ensureUser_keeps user.userId hentry

/-- A listed user keeps its counter. -/
theorem applyUsers_entry {users : List PanelUser} {rt : BackendRuntime} {u h : Nat}
    (hlive : BackendRuntime.isLive users u)
    (hentry : rt.traffic.counters.entries[u]? = some h) :
    (BackendRuntime.applyUsers P fromUser users rt).traffic.counters.entries[u]? = some h := by
  rw [(BackendRuntime.applyUsers_ledgers P fromUser users rt).traffic_eq]
  refine (Registry.retain_entries _ _ u).trans ?_
  rw [if_pos hlive]
  exact registerUsers_entry P fromUser users hentry

/-- A user that is not listed has no counter afterwards. -/
theorem applyUsers_dropped {users : List PanelUser} {u : Nat}
    (hlive : ¬BackendRuntime.isLive users u) (rt : BackendRuntime) :
    (BackendRuntime.applyUsers P fromUser users rt).traffic.counters.entries[u]? = none := by
  rw [(BackendRuntime.applyUsers_ledgers P fromUser users rt).traffic_eq]
  refine (Registry.retain_entries _ _ u).trans ?_
  rw [if_neg hlive]

/-- A poll that fails drops nobody; one that is applied drops the users it does not list. -/
theorem dropped_synced (hidle : s.inFlight = none) (answer : Except String (List PanelUser))
    (u : Nat) (d : Direction) :
    s.dropped (BackendRuntime.synced P fromUser answer s.runtime) u d =
      lostBy u d s (.sync answer) := by
  have hnone : s.inFlight.isNone = true := by rw [hidle, Option.isNone_none]
  by_cases hrejects : BackendRuntime.Rejects answer s.runtime
  · rw [(BackendRuntime.synced_rejects P fromUser hrejects).1]
    refine (if_pos rfl).trans ?_
    rcases hrejects with ⟨reason, rfl⟩ | ⟨users, rfl, hmax⟩
    · rfl
    · rw [lostBy, if_neg fun h => absurd hmax (Nat.not_lt.mpr h.2.1)]
  · cases answer with
    | error reason => exact absurd (Or.inl ⟨reason, rfl⟩) hrejects
    | ok users =>
        have hmax : users.length ≤ s.runtime.config.limits.maxUsers :=
          Nat.not_lt.mp fun hmax => hrejects (Or.inr ⟨users, rfl, hmax⟩)
        rw [(BackendRuntime.synced_accepts P fromUser hrejects).1, dropped, lostBy]
        cases hentry : s.counter? u with
        | none => rw [TrafficLedger.pending_of_none hentry, ite_self, ite_self]
        | some h =>
            by_cases hlive : BackendRuntime.isLive users u
            · rw [applyUsers_entry P fromUser hlive hentry, if_pos rfl,
                if_neg fun hlost => hlost.2.2 hlive]
            · rw [applyUsers_dropped P fromUser hlive, if_neg nofun,
                if_pos ⟨hnone, hmax, hlive⟩]

theorem sync_sound (hs : s.Sound owner lost) (answer : Except String (List PanelUser)) :
    ∃ owner', (step P fromUser s (.sync answer)).Sound owner' fun u d =>
      lost u d + lostBy u d s (.sync answer) := by
  cases hidle : s.inFlight with
  | some deltas =>
      refine ⟨owner, ?_⟩
      have hlost (u : Nat) (d : Direction) : lostBy u d s (.sync answer) = 0 := by
        cases answer with
        | error reason => rfl
        | ok users => simp [lostBy, hidle]
      simpa [step, hidle, hlost] using hs
  | none =>
      obtain ⟨owner', hgrown⟩ := synced_traffic P fromUser hs.owned hs.aligned answer
      refine ⟨owner', ?_⟩
      simp only [step, hidle, ← dropped_synced P fromUser hidle]
      apply publish_sound hs hidle hgrown
      cases synced_table P fromUser answer s.runtime with
      | inl hsame =>
          left
          rw [hsame]
          exact hs.current
      | inr hserving => exact Or.inr hserving

end Sync

section Report

/-- The deltas of a report are what the counters are ahead of their checkpoints. -/
theorem Sound.pendingDeltas (hs : s.Sound owner lost) {delta : TrafficDelta}
    (hmem : delta ∈ s.ledger.pendingDeltas) :
    ∃ h, s.counter? delta.userId = some h ∧ ∀ d, s.recorded delta.userId d < 2 ^ 64 →
      delta.get d + (s.ledger.checkpoint delta.userId).get d = delta.checkpoint.get d ∧
      delta.checkpoint.get d ≤ s.recordedOn h d := by
  obtain ⟨u, h, hentry, rfl, -⟩ := TrafficLedger.mem_pendingDeltas.mp hmem
  refine ⟨h, hentry, ?_⟩
  intro d hsmall
  have hsmall' : s.recorded u d < 2 ^ 64 := hsmall
  have hle := hs.recordedOn_le hentry d
  obtain ⟨hahead, -⟩ := hs.live u d h hsmall' hentry
  have hvalue : (s.ledger.snapshot h).get d = s.recordedOn h d := by
    rw [hs.value, Nat.mod_eq_of_lt (by omega)]
  have hcheckpoint : (s.ledger.delta u h).checkpoint = s.ledger.snapshot h := rfl
  have huser : (s.ledger.delta u h).userId = u := rfl
  rw [TrafficLedger.get_delta, hcheckpoint, huser, hvalue]
  omega

variable (P fromUser)

theorem report_sound (hs : s.Sound owner lost) :
    (step P fromUser s .report).Sound owner lost := by
  cases hidle : s.inFlight with
  | some deltas =>
      rw [step, hidle]
      exact hs
  | none =>
      have hstep : step P fromUser s .report = { s with
          inFlight := if s.ledger.pendingDeltas = [] then none
            else some s.ledger.pendingDeltas } := by
        rw [step, hidle]
      have hflight : ∀ deltas, (step P fromUser s .report).inFlight = some deltas →
          s.ledger.pendingDeltas = deltas := by
        intro deltas hdeltas
        rw [hstep] at hdeltas
        dsimp only at hdeltas
        split at hdeltas
        · cases hdeltas
        · exact Option.some.inj hdeltas
      rw [hstep] at hflight ⊢
      refine ⟨hs.owned, hs.aligned, hs.current, hs.published, hs.known, hs.value, hs.live, hs.gone,
        ?_, ?_⟩
      · intro deltas hdeltas
        rw [← hflight deltas hdeltas]
        exact s.ledger.pendingDeltas_nodup
      · intro deltas hdeltas delta hmem
        rw [← hflight deltas hdeltas] at hmem
        exact hs.pendingDeltas hmem

variable {P fromUser} {deltas : List TrafficDelta}

theorem acknowledged_acknowledge (u : Nat) (d : Direction) :
    (s.acknowledge deltas).acknowledged u d =
      s.acknowledged u d + tally TrafficDelta.userId (·.get d) u deltas := by
  have hflat : (s.acknowledge deltas).reports.flatten = s.reports.flatten ++ deltas := by
    simp [acknowledge]
  rw [acknowledged, hflat, tally_append]
  rfl

/-- The acknowledged bytes of a user are those that its checkpoint moves by. -/
theorem acknowledge_live (hs : s.Sound owner lost) (hflight : s.inFlight = some deltas) {u : Nat}
    {d : Direction} (hsmall : s.recorded u d < 2 ^ 64) {h : Nat} (hentry : s.counter? u = some h) :
    ((s.acknowledge deltas).ledger.checkpoint u).get d ≤ s.recordedOn h d ∧
      s.recorded u d + ((s.acknowledge deltas).ledger.checkpoint u).get d =
        (s.acknowledge deltas).acknowledged u d + lost u d + s.recordedOn h d := by
  have hledger : (s.acknowledge deltas).ledger = s.ledger.markReported deltas := rfl
  obtain ⟨hahead, hlive⟩ := hs.live u d h hsmall hentry
  rw [acknowledged_acknowledge, hledger]
  by_cases hmem : u ∈ deltas.map TrafficDelta.userId
  · obtain ⟨delta, hdelta, rfl⟩ := List.mem_map.mp hmem
    obtain ⟨h', hentry', hpending⟩ := hs.pending deltas hflight delta hdelta
    rw [hentry] at hentry'
    cases hentry'
    obtain ⟨hmoves, hbelow⟩ := hpending d hsmall
    have hcounter : delta.userId ∈ s.ledger.counters.entries := by
      rw [Std.HashMap.mem_iff_isSome_getElem?]
      exact Option.isSome_of_eq_some hentry
    rw [TrafficLedger.checkpoint_markReported (hs.distinct deltas hflight) hdelta hcounter,
      tally_of_mem (hs.distinct deltas hflight) hdelta]
    omega
  · rw [TrafficLedger.checkpoint_markReported_of_not_mem hmem, tally_of_not_mem hmem]
    omega

/-- A user without a counter is in no report. -/
theorem Sound.not_reported (hs : s.Sound owner lost) (hflight : s.inFlight = some deltas) {u : Nat}
    (hentry : s.counter? u = none) : u ∉ deltas.map TrafficDelta.userId := by
  intro hmem
  obtain ⟨delta, hdelta, rfl⟩ := List.mem_map.mp hmem
  obtain ⟨h, hsome, -⟩ := hs.pending deltas hflight delta hdelta
  exact absurd (hsome.symm.trans hentry) nofun

theorem counters_acknowledge (deltas : List TrafficDelta) :
    (s.acknowledge deltas).ledger.counters = s.ledger.counters :=
  s.ledger.markReported_counters deltas

theorem counter?_acknowledge (deltas : List TrafficDelta) (u : Nat) :
    (s.acknowledge deltas).counter? u = s.counter? u := by
  rw [counter?, counters_acknowledge]
  rfl

theorem acknowledge_sound (hs : s.Sound owner lost) (hflight : s.inFlight = some deltas) :
    (s.acknowledge deltas).Sound owner lost := by
  have hcounters := counters_acknowledge (s := s) deltas
  refine ⟨?_, ?_, hs.current, ?_, ?_, ?_, ?_, ?_, nofun, nofun⟩
  · rw [hcounters]
    exact hs.owned
  · intro u hnone
    rw [hcounters] at hnone
    refine (TrafficLedger.checkpoint_markReported_of_not_mem (hs.not_reported hflight hnone)).trans ?_
    exact hs.aligned u hnone
  · rw [hcounters]
    exact hs.published
  · rw [hcounters]
    exact hs.known
  · intro h d
    have hsame : (s.acknowledge deltas).ledger.snapshot h = s.ledger.snapshot h := by
      rw [TrafficLedger.snapshot, hcounters]
      rfl
    rw [hsame]
    exact hs.value h d
  · intro u d h hsmall hsome
    rw [counter?_acknowledge] at hsome
    exact acknowledge_live hs hflight hsmall hsome
  · intro u d hsmall hnone
    rw [counter?_acknowledge] at hnone
    rw [acknowledged_acknowledge, tally_of_not_mem (hs.not_reported hflight hnone)]
    exact hs.gone u d hsmall hnone

variable (P fromUser)

/-- A report that fails leaves the ledger as it is. -/
theorem step_failed (s : Accounting) (reason : String) :
    (step P fromUser s (.answered (.error reason))).ledger = s.ledger := by
  rw [step]
  cases s.inFlight <;> rfl

theorem answered_sound (hs : s.Sound owner lost) (answer : Except String Unit) :
    (step P fromUser s (.answered answer)).Sound owner lost := by
  rw [step]
  cases hflight : s.inFlight with
  | none => exact hs
  | some deltas =>
      cases answer with
      | error reason =>
          exact ⟨hs.owned, hs.aligned, hs.current, hs.published, hs.known, hs.value, hs.live,
            hs.gone, nofun, nofun⟩
      | ok done => exact acknowledge_sound hs hflight

end Report

/-! ### Runs -/

variable (P fromUser)

theorem step_sound (hs : s.Sound owner lost) (event : AccountingEvent) :
    ∃ owner', (step P fromUser s event).Sound owner' fun u d =>
      lost u d + lostBy u d s event := by
  cases event with
  | record snapshot v d bytes =>
      refine ⟨owner, ?_⟩
      simp only [step, lostBy]
      cases hhandle : s.handle? snapshot v with
      | none => exact hs
      | some h =>
          obtain ⟨hlt, howner⟩ := hs.handle hhandle
          exact recordOn_sound hs hlt howner
  | sync answer => exact sync_sound P fromUser hs answer
  | report => exact ⟨owner, report_sound P fromUser hs⟩
  | answered answer => exact ⟨owner, answered_sound P fromUser hs answer⟩

theorem run_sound (hs : s.Sound owner lost) (events : List AccountingEvent) :
    ∃ owner', (Machine.run (step P fromUser) s events).Sound owner' fun u d =>
      lost u d + lostIn P fromUser u d s events := by
  induction events generalizing s owner lost with
  | nil => exact ⟨owner, hs⟩
  | cons event events ih =>
      obtain ⟨owner', hnext⟩ := step_sound P fromUser hs event
      obtain ⟨owner'', hrest⟩ := ih hnext
      refine ⟨owner'', ?_⟩
      have hsum : (fun u d => lost u d + lostBy u d s event +
            lostIn P fromUser u d (step P fromUser s event) events) =
          fun u d => lost u d + lostIn P fromUser u d s (event :: events) := by
        funext u d
        exact Nat.add_assoc ..
      rw [← hsum]
      exact hrest

/-- The books of a run from the start. -/
theorem books (config : Config) (events : List AccountingEvent) :
    ∃ owner, (Machine.run (step P fromUser) (start config) events).Sound owner fun u d =>
      lostIn P fromUser u d (start config) events := by
  obtain ⟨owner, hs⟩ := run_sound P fromUser (start_sound config) events
  refine ⟨owner, ?_⟩
  simpa only [Nat.zero_add] using hs

theorem step_config (s : Accounting) (event : AccountingEvent) :
    (step P fromUser s event).runtime.config = s.runtime.config := by
  cases event with
  | record snapshot v d bytes =>
      rw [step]
      cases s.handle? snapshot v <;> rfl
  | report =>
      rw [step]
      cases s.inFlight <;> rfl
  | answered answer =>
      rw [step]
      cases s.inFlight with
      | none => rfl
      | some deltas => cases answer <;> rfl
  | sync answer =>
      rw [step]
      cases s.inFlight with
      | some deltas => rfl
      | none =>
          change (BackendRuntime.synced P fromUser answer s.runtime).config = _
          rcases BackendRuntime.synced_cases P fromUser answer s.runtime with
            hsame | ⟨users, -, happly⟩
          · rw [hsame]
          · rw [happly]
            exact (BackendRuntime.applyUsers_touches P fromUser users s.runtime).config_eq

theorem recorded_step_le (s : Accounting) (event : AccountingEvent) (u : Nat) (d : Direction) :
    (step P fromUser s event).recorded u d ≤ s.recorded u d + event.bytes := by
  cases event with
  | record snapshot v d' bytes =>
      rw [step]
      cases s.handle? snapshot v with
      | none => exact Nat.le_add_right _ _
      | some h =>
          rw [recorded_recordOn, AccountingEvent.bytes]
          split
          · exact Nat.le_refl _
          · exact Nat.add_le_add_left (Nat.zero_le bytes) _
  | sync answer =>
      rw [step]
      cases s.inFlight <;> exact Nat.le_refl _
  | report =>
      rw [step]
      cases s.inFlight <;> exact Nat.le_refl _
  | answered answer =>
      rw [step]
      cases s.inFlight with
      | none => exact Nat.le_refl _
      | some deltas => cases answer <;> exact Nat.le_refl _

/-- No more is recorded than the relays have asked for. -/
theorem recorded_run_le (s : Accounting) (events : List AccountingEvent) (u : Nat)
    (d : Direction) :
    (Machine.run (step P fromUser) s events).recorded u d ≤
      s.recorded u d + (events.map AccountingEvent.bytes).sum := by
  induction events generalizing s with
  | nil => exact Nat.le_refl _
  | cons event events ih =>
      have hfirst := recorded_step_le P fromUser s event u d
      have hrest := ih (step P fromUser s event)
      rw [Machine.run_cons, List.map_cons, List.sum_cons]
      omega

/-! ### Users that every poll lists -/

/-- The relays of a user hold the counter that the ledger has for it. -/
structure Loyal (u : Nat) (s : Accounting) : Prop where
  current : s.runtime.tables ∈ s.published
  handles : ∀ tables ∈ s.published, ∀ h : Nat, tables.countersByUser[u]? = some h →
    s.counter? u = some h

/-- The event is no applied poll without the user. -/
def Lists (u : Nat) (config : Config) (event : AccountingEvent) : Prop :=
  ∀ users, event = .sync (.ok users) → users.length ≤ config.limits.maxUsers →
    BackendRuntime.isLive users u

theorem synced_entry {rt : BackendRuntime} {answer : Except String (List PanelUser)} {u h : Nat}
    (hlists : Lists u rt.config (.sync answer))
    (hentry : rt.traffic.counters.entries[u]? = some h) :
    (BackendRuntime.synced P fromUser answer rt).traffic.counters.entries[u]? = some h := by
  by_cases hrejects : BackendRuntime.Rejects answer rt
  · rw [(BackendRuntime.synced_rejects P fromUser hrejects).1]
    exact hentry
  · cases answer with
    | error reason => exact absurd (Or.inl ⟨reason, rfl⟩) hrejects
    | ok users =>
        have hmax : users.length ≤ rt.config.limits.maxUsers :=
          Nat.not_lt.mp fun hmax => hrejects (Or.inr ⟨users, rfl, hmax⟩)
        rw [(BackendRuntime.synced_accepts P fromUser hrejects).1]
        exact applyUsers_entry P fromUser (hlists users rfl hmax) hentry

theorem publish_loyal {u : Nat} (h : Loyal u s) {answer : Except String (List PanelUser)}
    (hlists : Lists u s.runtime.config (.sync answer)) :
    Loyal u (s.publish (BackendRuntime.synced P fromUser answer s.runtime)) := by
  have hkept : ∀ tables ∈ s.published, ∀ handle : Nat, tables.countersByUser[u]? = some handle →
      (s.publish (BackendRuntime.synced P fromUser answer s.runtime)).counter? u = some handle := by
    intro tables hmem handle hentry
    exact synced_entry P fromUser hlists (h.handles tables hmem handle hentry)
  refine ⟨List.mem_append_right _ (List.mem_singleton_self _), ?_⟩
  intro tables hmem handle hentry
  cases List.mem_append.mp hmem with
  | inl hearlier => exact hkept tables hearlier handle hentry
  | inr hlast =>
      rw [List.mem_singleton.mp hlast] at hentry
      cases synced_table P fromUser answer s.runtime with
      | inl hsame =>
          rw [hsame] at hentry
          exact hkept _ h.current handle hentry
      | inr hserving => exact (hserving u).symm.trans hentry

theorem step_loyal {u : Nat} (h : Loyal u s) {event : AccountingEvent}
    (hlists : Lists u s.runtime.config event) : Loyal u (step P fromUser s event) := by
  cases event with
  | record snapshot v d bytes =>
      rw [step]
      cases s.handle? snapshot v with
      | none => exact h
      | some handle => exact ⟨h.current, h.handles⟩
  | sync answer =>
      rw [step]
      cases s.inFlight with
      | none => exact publish_loyal P fromUser h hlists
      | some deltas => exact h
  | report =>
      rw [step]
      cases s.inFlight with
      | none => exact ⟨h.current, h.handles⟩
      | some deltas => exact h
  | answered answer =>
      rw [step]
      cases s.inFlight with
      | none => exact h
      | some deltas =>
          cases answer with
          | error reason => exact ⟨h.current, h.handles⟩
          | ok done =>
              refine ⟨h.current, ?_⟩
              intro tables hmem handle hentry
              exact (counter?_acknowledge deltas u).trans (h.handles tables hmem handle hentry)

/-- A user that every poll lists loses nothing. -/
theorem lostBy_loyal {u : Nat} (h : Loyal u s) {event : AccountingEvent}
    (hlists : Lists u s.runtime.config event) (d : Direction) : lostBy u d s event = 0 := by
  cases event with
  | report => rfl
  | answered answer => rfl
  | record snapshot v d' bytes =>
      rw [lostBy]
      cases hhandle : s.handle? snapshot v with
      | none => rfl
      | some handle =>
          apply if_neg
          rintro ⟨hkey, hother⟩
          have hvu : v = u := congrArg Prod.fst hkey
          obtain ⟨tables, htables, hentry⟩ := Option.bind_eq_some_iff.mp hhandle
          rw [hvu] at hentry
          exact hother (h.handles tables (List.mem_of_getElem? htables) handle hentry)
  | sync answer =>
      cases answer with
      | error reason => rfl
      | ok users =>
          rw [lostBy, if_neg]
          rintro ⟨-, hmax, hlost⟩
          exact hlost (hlists users rfl hmax)

theorem lostIn_loyal {u : Nat} (h : Loyal u s) {events : List AccountingEvent}
    (hlists : ∀ event ∈ events, Lists u s.runtime.config event) (d : Direction) :
    lostIn P fromUser u d s events = 0 := by
  induction events generalizing s with
  | nil => rfl
  | cons event events ih =>
      have hfirst := hlists event List.mem_cons_self
      have hrest : lostIn P fromUser u d (step P fromUser s event) events = 0 := by
        apply ih (step_loyal P fromUser h hfirst)
        intro later hlater
        rw [step_config]
        exact hlists later (List.mem_cons_of_mem event hlater)
      have hnow := lostBy_loyal h hfirst d
      change lostBy u d s event + lostIn P fromUser u d (step P fromUser s event) events = 0
      rw [hnow, hrest]

theorem start_loyal (config : Config) (u : Nat) : Loyal u (start config) := by
  refine ⟨List.mem_singleton_self _, ?_⟩
  intro tables hmem h hentry
  rw [List.mem_singleton.mp hmem] at hentry
  exact absurd (hentry.symm.trans Std.HashMap.getElem?_empty) nofun

/-! ### A user that leaves and returns -/

/-- A user that returns is given a counter that nothing was recorded on. -/
theorem returned_pending (hs : s.Sound owner lost) (hidle : s.inFlight = none) {u : Nat}
    (hgone : s.counter? u = none) (answer : Except String (List PanelUser)) (d : Direction) :
    (step P fromUser s (.sync answer)).ledger.pending u d = 0 := by
  obtain ⟨owner', hgrown⟩ := synced_traffic P fromUser hs.owned hs.aligned answer
  have hledger : (step P fromUser s (.sync answer)).ledger =
      (BackendRuntime.synced P fromUser answer s.runtime).traffic := by
    rw [step, hidle]
    rfl
  rw [hledger]
  cases hentry : (BackendRuntime.synced P fromUser answer s.runtime).traffic.counters.entries[u]? with
  | none => exact TrafficLedger.pending_of_none hentry d
  | some h =>
      rcases hgrown.entry u h hentry with ⟨hkept, -⟩ | ⟨hnew, -⟩
      · exact absurd (hkept.symm.trans hgone) nofun
      · have hvalue := hs.value h d
        rw [hs.recordedOn_new hnew, Nat.zero_mod] at hvalue
        rw [TrafficLedger.pending_of_entry hentry, hgrown.snapshot_eq]
        exact (congrArg (· - _) hvalue).trans (Nat.zero_sub _)

theorem step_sync (hidle : s.inFlight = none) {users : List PanelUser}
    (hmax : users.length ≤ s.runtime.config.limits.maxUsers) :
    step P fromUser s (.sync (.ok users)) =
      s.publish (BackendRuntime.applyUsers P fromUser users s.runtime) := by
  rw [step, hidle]
  exact congrArg s.publish
    (BackendRuntime.synced_accepts P fromUser (BackendRuntime.not_rejects_ok (by omega))).1

/-- A poll records, reports and acknowledges nothing. -/
theorem sync_history (s : Accounting) (answer : Except String (List PanelUser)) :
    (step P fromUser s (.sync answer)).inFlight = s.inFlight ∧
      (step P fromUser s (.sync answer)).records = s.records ∧
      (step P fromUser s (.sync answer)).reports = s.reports := by
  rw [step]
  cases hidle : s.inFlight with
  | some deltas => exact ⟨hidle, rfl, rfl⟩
  | none => exact ⟨hidle, rfl, rfl⟩

/-- After a poll that misses a user nothing is pending for it, even when the next one lists it. -/
theorem missed_pending (hs : s.Sound owner lost) (hidle : s.inFlight = none)
    {users : List PanelUser} (hmax : users.length ≤ s.runtime.config.limits.maxUsers) {u : Nat}
    (hmissed : ¬BackendRuntime.isLive users u) (answer : Except String (List PanelUser))
    (d : Direction) :
    (step P fromUser (step P fromUser s (.sync (.ok users))) (.sync answer)).ledger.pending u d =
      0 := by
  obtain ⟨owner', hs'⟩ := step_sound P fromUser hs (.sync (.ok users))
  have hgone : (step P fromUser s (.sync (.ok users))).counter? u = none := by
    rw [step_sync P fromUser hidle hmax]
    exact applyUsers_dropped P fromUser hmissed s.runtime
  have hidle' := (sync_history P fromUser s (.ok users)).1.trans hidle
  exact returned_pending P fromUser hs' hidle' hgone answer d

/-- A poll that lists a user publishes its counter. -/
theorem sync_listed (hidle : s.inFlight = none) {users : List PanelUser}
    (hmax : users.length ≤ s.runtime.config.limits.maxUsers) {u : Nat}
    (hlive : BackendRuntime.isLive users u) :
    ∃ h, (step P fromUser s (.sync (.ok users))).counter? u = some h ∧
      (step P fromUser s (.sync (.ok users))).handle? s.published.length u = some h := by
  have hstep := step_sync P fromUser hidle hmax
  have hserving := (BackendRuntime.applyUsers_serving P fromUser users s.runtime).counters
  have hmem := (hserving.mem_iff u).mpr hlive
  obtain ⟨h, htable⟩ := Option.isSome_iff_exists.mp (Std.HashMap.isSome_getElem?_iff_mem.mpr hmem)
  refine ⟨h, ?_, ?_⟩
  · rw [hstep]
    exact (hserving.table_eq u).symm.trans htable
  · rw [hstep, handle?]
    have hlast : (s.publish (BackendRuntime.applyUsers P fromUser users s.runtime)).published[
        s.published.length]? = some (BackendRuntime.applyUsers P fromUser users s.runtime).tables :=
      List.getElem?_concat_length
    rw [hlast, Option.bind_some]
    exact htable

/-! ### The two laws -/

section Laws

/-- For a user that every poll lists, what is acknowledged and what is pending are all that
was recorded; no checkpoint is ahead of its counter, and a report that fails changes none. -/
theorem live_user_conserved (config : Config) (u : Nat) (events : List AccountingEvent)
    (hlists : ∀ event ∈ events, Lists u config event)
    (hsmall : ∀ d, (Machine.run (step P fromUser) (start config) events).recorded u d < 2 ^ 64) :
    let s := Machine.run (step P fromUser) (start config) events
    (∀ d, s.acknowledged u d + s.ledger.pending u d = s.recorded u d) ∧
    (∀ v d h, s.recorded v d < 2 ^ 64 → s.counter? v = some h →
      (s.ledger.checkpoint v).get d ≤ (s.ledger.snapshot h).get d) ∧
    ∀ reason, (step P fromUser s (.answered (.error reason))).ledger = s.ledger := by
  obtain ⟨owner, hs⟩ := books P fromUser config events
  refine ⟨?_, ?_, step_failed P fromUser _⟩
  · intro d
    have hbalance := hs.balance (hsmall d)
    rw [lostIn_loyal P fromUser (start_loyal config u) hlists] at hbalance
    exact hbalance.symm
  · intro v d h hv hentry
    have hle := hs.recordedOn_le hentry d
    rw [hs.value, Nat.mod_eq_of_lt (Nat.lt_of_le_of_lt hle hv)]
    exact (hs.live v d h hv hentry).1

open BackendRuntime

def billedRow : PanelUser := sampleRow 7 443 "a" 0

/-- Bytes are recorded while the report of the earlier ones is under way. -/
def reportedOnce : List AccountingEvent :=
  [.sync (.ok [billedRow]), .record 1 7 .upload 5, .report, .record 1 7 .upload 3,
    .answered (.ok ())]

theorem live_user_conserved_reported :
    (∀ event ∈ reportedOnce, Lists 7 sampleConfig event) ∧
      let s := Machine.run (step .standard noLimits) (start sampleConfig) reportedOnce
      s.acknowledged 7 .upload + s.ledger.pending 7 .upload = s.recorded 7 .upload := by
  have hlists : ∀ event ∈ reportedOnce, Lists 7 sampleConfig event := by
    intro event hmem users heq _
    rw [heq] at hmem
    have husers : users = [billedRow] := by simpa [reportedOnce] using hmem
    rw [husers]
    decide
  have hsmall (d : Direction) : (Machine.run (step .standard noLimits) (start sampleConfig)
      reportedOnce).recorded 7 d < 2 ^ 64 := by
    have hle := recorded_run_le .standard noLimits (start sampleConfig) reportedOnce 7 d
    have hzero : (start sampleConfig).recorded 7 d = 0 := rfl
    rw [hzero] at hle
    exact Nat.lt_of_le_of_lt hle (by decide)
  exact ⟨hlists, (live_user_conserved .standard noLimits sampleConfig 7 reportedOnce hlists
    hsmall).1 .upload⟩

/-- Every byte on a handle of a user is acknowledged once, pending, or lost. -/
theorem removed_user_losses (config : Config) (events : List AccountingEvent) (u : Nat)
    (d : Direction)
    (hsmall : (Machine.run (step P fromUser) (start config) events).recorded u d < 2 ^ 64) :
    let s := Machine.run (step P fromUser) (start config) events
    s.recorded u d =
      s.acknowledged u d + s.ledger.pending u d + lostIn P fromUser u d (start config) events := by
  obtain ⟨owner, hs⟩ := books P fromUser config events
  exact hs.balance hsmall

/-- User 7 with its counter, after the first poll. -/
def billed : Accounting := step .standard noLimits (start sampleConfig) (.sync (.ok [billedRow]))

theorem billed_counter : ∃ h, billed.counter? 7 = some h ∧ billed.handle? 1 7 = some h :=
  sync_listed .standard noLimits rfl (by decide) (by decide)

/-- A poll misses the user once, before its bytes are reported. -/
def missedOnce : List AccountingEvent :=
  [.sync (.ok [billedRow]), .record 1 7 .upload 5, .sync (.ok []), .sync (.ok [billedRow])]

def missed : Accounting :=
  Machine.run (step .standard noLimits) (start sampleConfig) missedOnce

/-- The counter of the user goes round. -/
def wrapped : Accounting :=
  Machine.run (step .standard noLimits) (start sampleConfig)
    [.sync (.ok [billedRow]), .record 1 7 .upload (2 ^ 63), .record 1 7 .upload (2 ^ 63)]

theorem billed_record {h : Handle} (hhandle : billed.handle? 1 7 = some h) (bytes : Nat) :
    step .standard noLimits billed (.record 1 7 .upload bytes) =
      billed.recordOn ⟨7, h, .upload, bytes⟩ := by
  rw [step, hhandle]

theorem billed_config : billed.runtime.config = sampleConfig :=
  step_config .standard noLimits (start sampleConfig) (.sync (.ok [billedRow]))

theorem missed_loses {h : Handle} (hhandle : billed.handle? 1 7 = some h) :
    (missed.counter? 7).isSome ∧ missed.recorded 7 .upload = 5 ∧
      missed.acknowledged 7 .upload = 0 ∧ missed.ledger.pending 7 .upload = 0 := by
  obtain ⟨owner, hs⟩ := books .standard noLimits sampleConfig
    [.sync (.ok [billedRow]), .record 1 7 .upload 5]
  have hstart : Machine.run (step .standard noLimits) (start sampleConfig)
      [.sync (.ok [billedRow]), .record 1 7 .upload 5] = billed.recordOn ⟨7, h, .upload, 5⟩ :=
    billed_record hhandle 5
  have hmissed : missed = step .standard noLimits (step .standard noLimits
      (billed.recordOn ⟨7, h, .upload, 5⟩) (.sync (.ok []))) (.sync (.ok [billedRow])) := by
    rw [← hstart]
    rfl
  rw [hstart] at hs
  rw [hmissed]
  have hidle : (billed.recordOn ⟨7, h, .upload, 5⟩).inFlight = none := rfl
  have hconfig : (billed.recordOn ⟨7, h, .upload, 5⟩).runtime.config = sampleConfig := billed_config
  obtain ⟨hidle', hrecords', hreports'⟩ := sync_history .standard noLimits
    (billed.recordOn ⟨7, h, .upload, 5⟩) (.ok [])
  obtain ⟨-, hrecords, hreports⟩ := sync_history .standard noLimits (step .standard noLimits
    (billed.recordOn ⟨7, h, .upload, 5⟩) (.sync (.ok []))) (.ok [billedRow])
  refine ⟨?_, ?_, ?_, ?_⟩
  · obtain ⟨h', hentry, -⟩ := sync_listed .standard noLimits (hidle'.trans hidle)
      (show [billedRow].length ≤ _ by rw [step_config, hconfig]; decide)
      (show isLive [billedRow] 7 by decide)
    rw [hentry, Option.isSome_some]
  · rw [recorded, hrecords, hrecords']
    rfl
  · rw [acknowledged, hreports, hreports']
    rfl
  · exact missed_pending .standard noLimits hs hidle (Nat.zero_le _) (by decide) _ _

theorem wrapped_loses {h : Handle} (hentry : billed.counter? 7 = some h)
    (hhandle : billed.handle? 1 7 = some h) :
    (wrapped.counter? 7).isSome ∧ wrapped.recorded 7 .upload = 2 ^ 64 ∧
      wrapped.acknowledged 7 .upload = 0 ∧ wrapped.ledger.pending 7 .upload = 0 := by
  obtain ⟨owner, hs⟩ := books .standard noLimits sampleConfig
    [.sync (.ok [billedRow]), .record 1 7 .upload (2 ^ 63), .record 1 7 .upload (2 ^ 63)]
  have hwrapped : wrapped = (billed.recordOn ⟨7, h, .upload, 2 ^ 63⟩).recordOn
      ⟨7, h, .upload, 2 ^ 63⟩ := by
    have hagain : (billed.recordOn ⟨7, h, .upload, 2 ^ 63⟩).handle? 1 7 = some h := hhandle
    have hsecond : step .standard noLimits (billed.recordOn ⟨7, h, .upload, 2 ^ 63⟩)
        (.record 1 7 .upload (2 ^ 63)) = (billed.recordOn ⟨7, h, .upload, 2 ^ 63⟩).recordOn
          ⟨7, h, .upload, 2 ^ 63⟩ := by
      rw [step, hagain]
    rw [← hsecond, ← billed_record hhandle]
    rfl
  have hs' : wrapped.Sound owner _ := hs
  have hrecorded : wrapped.recorded 7 .upload = 2 ^ 64 := by
    rw [hwrapped, recorded_recordOn, recorded_recordOn]
    rfl
  have hon : wrapped.recordedOn h .upload = 2 ^ 64 := by
    rw [hwrapped, recordedOn_recordOn, recordedOn_recordOn, if_pos rfl]
    rfl
  have hcounter : wrapped.counter? 7 = some h := by
    rw [hwrapped]
    exact hentry
  refine ⟨?_, hrecorded, ?_, ?_⟩
  · rw [hcounter, Option.isSome_some]
  · rw [hwrapped]
    rfl
  · rw [TrafficLedger.pending_of_entry hcounter, hs'.value, hon, Nat.mod_self, Nat.zero_sub]

theorem removed_user_losses_missed :
    missed.recorded 7 .upload < 2 ^ 64 ∧
      lostIn .standard noLimits 7 .upload (start sampleConfig) missedOnce = 5 := by
  obtain ⟨h, -, hhandle⟩ := billed_counter
  obtain ⟨-, hrecorded, hacknowledged, hpending⟩ := missed_loses hhandle
  have hsmall : missed.recorded 7 .upload < 2 ^ 64 := by
    rw [hrecorded]
    decide
  have hbalance : missed.recorded 7 .upload = missed.acknowledged 7 .upload +
      missed.ledger.pending 7 .upload + _ :=
    removed_user_losses .standard noLimits sampleConfig missedOnce 7 .upload hsmall
  refine ⟨hsmall, ?_⟩
  omega

/-- The bytes of a user whom one poll misses are reported to nobody, and neither are those
of a counter that goes round. -/
theorem missed_poll_loses_bytes :
    ((missed.counter? 7).isSome ∧ missed.recorded 7 .upload = 5 ∧
      missed.acknowledged 7 .upload = 0 ∧ missed.ledger.pending 7 .upload = 0) ∧
    ((wrapped.counter? 7).isSome ∧ wrapped.recorded 7 .upload = 2 ^ 64 ∧
      wrapped.acknowledged 7 .upload = 0 ∧ wrapped.ledger.pending 7 .upload = 0) := by
  obtain ⟨h, hentry, hhandle⟩ := billed_counter
  exact ⟨missed_loses hhandle, wrapped_loses hentry hhandle⟩

end Laws

end Accounting

end SsrBackend
