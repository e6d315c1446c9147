import SsrBackend.Foundation.Tally
import SsrBackend.Traffic.Ledger

/-!
The operations of the traffic ledger, each by what it leaves in the counters, the
checkpoints and the deltas that are to be reported.
-/

namespace SsrBackend

inductive Direction where
  | upload
  | download
  deriving DecidableEq, Repr

/-- `record_upload` or `record_download`. -/
def UserCounters.recordBytes (bytes : Nat) : Direction → UserCounters → UserCounters
  | .upload => recordUpload bytes
  | .download => recordDownload bytes

def CounterSnapshot.get (s : CounterSnapshot) : Direction → Nat
  | .upload => s.upload
  | .download => s.download

def TrafficDelta.get (delta : TrafficDelta) : Direction → Nat
  | .upload => delta.upload
  | .download => delta.download

@[simp] theorem CounterSnapshot.get_default (d : Direction) : ({} : CounterSnapshot).get d = 0 := by
  cases d <;> rfl

theorem UserCounters.get_recordBytes (c : UserCounters) (bytes : Nat) (d d' : Direction) :
    (c.recordBytes bytes d).snapshot.get d' =
      if d = d' then (c.snapshot.get d' + bytes) % 2 ^ 64 else c.snapshot.get d' := by
  cases d <;> cases d' <;> rfl

namespace TrafficLedger

variable {l : TrafficLedger}

theorem get_delta (l : TrafficLedger) (u h : Nat) (d : Direction) :
    (l.delta u h).get d = (l.snapshot h).get d - (l.checkpoint u).get d := by
  cases d <;> rfl

theorem snapshot_eq (l : TrafficLedger) (h : Nat) :
    l.snapshot h = ((l.counters.objects.get? h).getD {}).snapshot := by
  rw [snapshot]
  cases l.counters.objects.get? h <;> rfl

theorem snapshot_record {h : Nat} (hlt : h < l.counters.objects.size) (bytes : Nat)
    (d : Direction) (h' : Nat) (d' : Direction) :
    ((l.record h (UserCounters.recordBytes bytes d)).snapshot h').get d' =
      if (h, d) = (h', d') then ((l.snapshot h').get d' + bytes) % 2 ^ 64
      else (l.snapshot h').get d' := by
  rw [snapshot, record]
  dsimp only
  rw [Arena.get?_modify]
  by_cases heq : h = h'
  · subst heq
    obtain ⟨counters, hcounters⟩ : ∃ counters, l.counters.objects.get? h = some counters :=
      ⟨_, List.getElem?_eq_getElem hlt⟩
    rw [if_pos rfl, snapshot, hcounters]
    simp only [Option.map_some, Option.getD_some, Prod.mk.injEq, true_and]
    exact counters.get_recordBytes bytes d d'
  · rw [if_neg heq, if_neg fun h => heq (congrArg Prod.fst h)]
    rfl

/-! ### The deltas -/

/-- What `pending_deltas` would report for a user now. -/
def pending (l : TrafficLedger) (u : Nat) (d : Direction) : Nat :=
  tally TrafficDelta.userId (·.get d) u l.pendingDeltas

theorem mem_pendingDeltas {delta : TrafficDelta} : delta ∈ l.pendingDeltas ↔
    ∃ u h : Nat, l.counters.entries[u]? = some h ∧ l.delta u h = delta ∧
      (0 < delta.upload ∨ 0 < delta.download) := by
  simp only [pendingDeltas, List.mem_filter, List.mem_map, decide_eq_true_eq]
  constructor
  · rintro ⟨⟨entry, hentry, hdelta⟩, hpos⟩
    exact ⟨entry.1, entry.2, Std.HashMap.mem_toList_iff_getElem?_eq_some.mp hentry, hdelta, hpos⟩
  · rintro ⟨u, h, hentry, hdelta, hpos⟩
    exact ⟨⟨(u, h), Std.HashMap.mem_toList_iff_getElem?_eq_some.mpr hentry, hdelta⟩, hpos⟩

/-- No user is reported twice. -/
theorem pendingDeltas_nodup (l : TrafficLedger) :
    (l.pendingDeltas.map TrafficDelta.userId).Nodup := by
  have hsub : (l.pendingDeltas.map TrafficDelta.userId).Sublist
      ((l.counters.entries.toList.map fun entry => l.delta entry.1 entry.2).map
        TrafficDelta.userId) := List.filter_sublist.map _
  apply hsub.nodup
  rw [List.map_map]
  have hdistinct : l.counters.entries.toList.Pairwise fun a b => (a.1 == b.1) = false :=
    Std.HashMap.distinct_keys_toList
  rw [List.Nodup, List.pairwise_map]
  apply hdistinct.imp
  intro a b hne
  exact ne_of_beq_false hne

theorem pending_of_entry {u h : Nat} (hentry : l.counters.entries[u]? = some h) (d : Direction) :
    l.pending u d = (l.snapshot h).get d - (l.checkpoint u).get d := by
  rw [← get_delta]
  by_cases hpos : 0 < (l.delta u h).upload ∨ 0 < (l.delta u h).download
  · have hmem : l.delta u h ∈ l.pendingDeltas :=
      mem_pendingDeltas.mpr ⟨u, h, hentry, rfl, hpos⟩
    exact tally_of_mem l.pendingDeltas_nodup hmem
  · have hzero : (l.delta u h).get d = 0 := by
      cases d with
      | upload => exact Nat.eq_zero_of_not_pos fun h => hpos (Or.inl h)
      | download => exact Nat.eq_zero_of_not_pos fun h => hpos (Or.inr h)
    rw [hzero]
    apply tally_of_not_mem
    intro hmem
    obtain ⟨delta, hdelta, huser⟩ := List.mem_map.mp hmem
    obtain ⟨v, h', hv, rfl, hpos'⟩ := mem_pendingDeltas.mp hdelta
    have hvu : v = u := huser
    subst hvu
    rw [hentry] at hv
    cases hv
    exact hpos hpos'

theorem pending_of_none {u : Nat} (hentry : l.counters.entries[u]? = none) (d : Direction) :
    l.pending u d = 0 := by
  apply tally_of_not_mem
  intro hmem
  obtain ⟨delta, hdelta, huser⟩ := List.mem_map.mp hmem
  obtain ⟨v, h, hv, rfl, -⟩ := mem_pendingDeltas.mp hdelta
  have hvu : v = u := huser
  rw [hvu, hentry] at hv
  cases hv

/-! ### The checkpoints -/

theorem markOne_counters (l : TrafficLedger) (delta : TrafficDelta) :
    (l.markOne delta).counters = l.counters := by
  unfold markOne
  split <;> rfl

theorem markReported_counters (l : TrafficLedger) (deltas : List TrafficDelta) :
    (l.markReported deltas).counters = l.counters := by
  induction deltas generalizing l with
  | nil => rfl
  | cons delta deltas ih => exact (ih (l.markOne delta)).trans (l.markOne_counters delta)

theorem checkpoint_markOne {delta : TrafficDelta} (h : delta.userId ∈ l.counters.entries)
    (u : Nat) :
    (l.markOne delta).checkpoint u =
      if delta.userId = u then delta.checkpoint else l.checkpoint u := by
  rw [markOne, if_pos h, checkpoint, checkpoint, Std.HashMap.getD_insert]
  simp only [beq_iff_eq]

theorem checkpoint_markOne_of_ne {delta : TrafficDelta} {u : Nat} (h : delta.userId ≠ u) :
    (l.markOne delta).checkpoint u = l.checkpoint u := by
  by_cases hmem : delta.userId ∈ l.counters.entries
  · rw [checkpoint_markOne hmem, if_neg h]
  · rw [markOne, if_neg hmem]

theorem checkpoint_markReported_of_not_mem {deltas : List TrafficDelta} {u : Nat}
    (h : u ∉ deltas.map TrafficDelta.userId) :
    (l.markReported deltas).checkpoint u = l.checkpoint u := by
  induction deltas generalizing l with
  | nil => rfl
  | cons delta deltas ih =>
      rw [List.map_cons, List.mem_cons, not_or] at h
      exact (ih h.2).trans (checkpoint_markOne_of_ne (Ne.symm h.1))

/-- The checkpoint of a reported user is the snapshot of the report. -/
theorem checkpoint_markReported {deltas : List TrafficDelta}
    (hnodup : (deltas.map TrafficDelta.userId).Nodup) {delta : TrafficDelta}
    (hmem : delta ∈ deltas) (hentry : delta.userId ∈ l.counters.entries) :
    (l.markReported deltas).checkpoint delta.userId = delta.checkpoint := by
  induction deltas generalizing l with
  | nil => cases hmem
  | cons first deltas ih =>
      rw [List.map_cons, List.nodup_cons] at hnodup
      cases List.mem_cons.mp hmem with
      | inl heq =>
          subst heq
          refine (checkpoint_markReported_of_not_mem hnodup.1).trans ?_
          rw [checkpoint_markOne hentry, if_pos rfl]
      | inr hrest =>
          apply ih hnodup.2 hrest
          rw [markOne_counters]
          exact hentry

/-! ### Users that come and go -/

/-- A user without a counter has no checkpoint that a new counter could meet. -/
def Aligned (l : TrafficLedger) : Prop :=
  ∀ u : Nat, l.counters.entries[u]? = none → l.checkpoint u = {}

/-- A later ledger: a counter that is still there has its checkpoint, and a new one has none. -/
structure Grown (l : TrafficLedger) (owner : Nat → Nat) (l' : TrafficLedger)
    (owner' : Nat → Nat) : Prop extends
    Registry.Grown {} l.counters owner l'.counters owner' where
  aligned : l'.Aligned
  entry : ∀ u h : Nat, l'.counters.entries[u]? = some h →
    (l.counters.entries[u]? = some h ∧ l'.checkpoint u = l.checkpoint u) ∨
      (l.counters.objects.size ≤ h ∧ l'.checkpoint u = {})

theorem Grown.refl {owner : Nat → Nat} (h : l.counters.Owned owner) (haligned : l.Aligned) :
    Grown l owner l owner :=
  ⟨.refl h, haligned, fun _ _ hentry => Or.inl ⟨hentry, rfl⟩⟩

theorem Grown.trans {l' l'' : TrafficLedger} {owner owner' owner'' : Nat → Nat}
    (h : Grown l owner l' owner') (h' : Grown l' owner' l'' owner'') :
    Grown l owner l'' owner'' where
  toGrown := h.toGrown.trans h'.toGrown
  aligned := h'.aligned
  entry u handle hentry := by
    rcases h'.entry u handle hentry with ⟨hkept, hcheckpoint⟩ | ⟨hnew, hcheckpoint⟩
    · rcases h.entry u handle hkept with ⟨hold, hsame⟩ | ⟨hnew, hzero⟩
      · exact Or.inl ⟨hold, hcheckpoint.trans hsame⟩
      · exact Or.inr ⟨hnew, hcheckpoint.trans hzero⟩
    · exact Or.inr ⟨Nat.le_trans h.size_le hnew, hcheckpoint⟩

theorem Grown.snapshot_eq {l' : TrafficLedger} {owner owner' : Nat → Nat}
    (h : Grown l owner l' owner') (handle : Nat) : l'.snapshot handle = l.snapshot handle := by
  rw [TrafficLedger.snapshot_eq, TrafficLedger.snapshot_eq, h.value_eq]

theorem ensureUser_none {userId : Nat} (hself : l.counters.entries[userId]? = none) :
    (l.ensureUser userId).2 =
      ⟨(l.counters.ensure userId {} id).2, l.checkpoints.insertIfNew userId {}⟩ := by
  rw [ensureUser, hself]

/-- `ensure_user` changes no checkpoint: a new user had none. -/
theorem checkpoint_ensureUser (haligned : l.Aligned) (userId u : Nat) :
    (l.ensureUser userId).2.checkpoint u = l.checkpoint u := by
  cases hself : l.counters.entries[userId]? with
  | some handle => rw [ensureUser, hself]
  | none =>
      rw [ensureUser_none hself, checkpoint, Std.HashMap.getD_insertIfNew]
      split
      · rename_i hnew
        rw [← eq_of_beq hnew.1, haligned userId hself]
      · rfl

theorem ensureUser_grown {owner : Nat → Nat} (h : l.counters.Owned owner) (haligned : l.Aligned)
    (userId : Nat) : ∃ owner', Grown l owner (l.ensureUser userId).2 owner' := by
  have hcheckpoint := checkpoint_ensureUser haligned userId
  cases hself : l.counters.entries[userId]? with
  | some handle =>
      rw [ensureUser, hself]
      exact ⟨owner, .refl h haligned⟩
  | none =>
      obtain ⟨owner', hgrown⟩ : ∃ owner', Registry.Grown {} l.counters owner
          (l.counters.ensure userId {} id).2 owner' := Registry.ensure_grown h userId
      have hcounters : (l.ensureUser userId).2.counters = (l.counters.ensure userId {} id).2 :=
        congrArg counters (ensureUser_none hself)
      refine ⟨owner', ?_, ?_, ?_⟩
      · rw [hcounters]
        exact hgrown
      · intro u hnone
        rw [hcheckpoint]
        apply haligned u
        rw [hcounters] at hnone
        cases hentry : l.counters.entries[u]? with
        | none => rfl
        | some handle =>
            rw [Registry.ensure_keeps l.counters userId {} id hentry] at hnone
            cases hnone
      · intro u handle hentry
        rw [hcheckpoint]
        rw [hcounters] at hentry
        cases Registry.ensure_entries l.counters userId {} id hentry with
        | inr hold => exact Or.inl ⟨hold, rfl⟩
        | inl heq =>
            subst heq
            rw [Registry.ensure_self, Registry.ensure_none l.counters u {} id hself] at hentry
            cases hentry
            exact Or.inr ⟨Nat.le_refl _, haligned u hself⟩

theorem checkpoint_removeStaleUsers (l : TrafficLedger) (live : Nat → Bool) (u : Nat) :
    (l.removeStaleUsers live).checkpoint u = if live u then l.checkpoint u else {} := by
  rw [checkpoint, checkpoint, removeStaleUsers, Std.HashMap.getD_eq_getD_getElem?,
    Std.HashMap.getD_eq_getD_getElem?, Std.HashMap.getElem?_filter']
  cases l.checkpoints[u]? with
  | none => simp
  | some value => cases live u <;> simp [Option.filter]

theorem removeStaleUsers_grown {owner : Nat → Nat} (h : l.counters.Owned owner)
    (haligned : l.Aligned) (live : Nat → Bool) :
    Grown l owner (l.removeStaleUsers live) owner := by
  have hentries (u : Nat) : (l.removeStaleUsers live).counters.entries[u]? =
      if live u then l.counters.entries[u]? else none := Registry.retain_entries _ _ u
  refine ⟨Registry.retain_grown h live, ?_, ?_⟩
  · intro u hnone
    rw [checkpoint_removeStaleUsers]
    rw [hentries] at hnone
    cases hlive : live u with
    | false => rfl
    | true =>
        rw [hlive, if_pos rfl] at hnone
        rw [if_pos rfl]
        exact haligned u hnone
  · intro u handle hentry
    rw [checkpoint_removeStaleUsers]
    rw [hentries] at hentry
    cases hlive : live u with
    | false =>
        rw [hlive] at hentry
        cases hentry
    | true =>
        rw [hlive, if_pos rfl] at hentry
        exact Or.inl ⟨hentry, rfl⟩

end TrafficLedger

end SsrBackend
