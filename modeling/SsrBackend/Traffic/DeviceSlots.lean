import Mathlib.Data.List.Dedup
import Mathlib.Data.List.Perm.Basic
import SsrBackend.Foundation.Machine
import SsrBackend.Traffic.UserIpSet

/-!
The guards of one `UserIpSet`. A guard is known by its IP; the live ones stand in the
order they were acquired in, and any of them may be dropped next.
-/

namespace SsrBackend

/-- The set counts the guards of `live`, and has no entry for an IP without one. -/
def Counts (live : List String) (ips : UserIpSet) : Prop :=
  ∀ ip, ips[ip]? = if live.count ip = 0 then none else some (live.count ip)

namespace Counts

variable {live : List String} {ips : UserIpSet}

theorem empty : Counts [] ∅ := by
  intro ip
  rw [Std.HashMap.getElem?_empty, List.count_nil, if_pos rfl]

theorem mem_iff (h : Counts live ips) (ip : String) : ip ∈ ips ↔ ip ∈ live := by
  rw [Std.HashMap.mem_iff_isSome_getElem?, h ip, ← List.count_pos_iff]
  by_cases hnone : live.count ip = 0
  · simp [hnone]
  · simp [hnone, Nat.pos_of_ne_zero hnone]

theorem getElem?_eq_none_iff (h : Counts live ips) (ip : String) : ips[ip]? = none ↔ ip ∉ live := by
  rw [← h.mem_iff, Std.HashMap.mem_iff_isSome_getElem?]
  simp

theorem getElem?_eq_some (h : Counts live ips) {ip : String} {count : Nat}
    (hcount : ips[ip]? = some count) : live.count ip = count ∧ 0 < count := by
  rw [h ip] at hcount
  split at hcount
  · cases hcount
  · rename_i hpos
    cases hcount
    exact ⟨rfl, Nat.pos_of_ne_zero hpos⟩

/-- As many entries as distinct IPs. -/
theorem size_eq (h : Counts live ips) : ips.size = live.dedup.length := by
  have hperm : ips.keys.Perm live.dedup := by
    rw [List.perm_ext_iff_of_nodup Std.HashMap.nodup_keys (List.nodup_dedup live)]
    intro ip
    rw [Std.HashMap.mem_keys, List.mem_dedup]
    exact h.mem_iff ip
  rw [← Std.HashMap.length_keys]
  exact hperm.length_eq

theorem perm (h : Counts live ips) {live' : List String} (hperm : live.Perm live') :
    Counts live' ips := by
  intro ip
  rw [h ip, hperm.count_eq]

/-- One more guard of an IP. -/
theorem insert (h : Counts live ips) (ip : String) :
    Counts (ip :: live) (ips.insert ip (live.count ip + 1)) := by
  intro other
  rw [Std.HashMap.getElem?_insert, List.count_cons]
  by_cases heq : ip = other
  · simp [heq]
  · simp [heq, h other]

/-- `acquire` refuses a new IP at the limit, and counts any other guard. -/
theorem acquire (h : Counts live ips) (ip : String) (limit : Nat) :
    (ConnGuard.acquire ips ip limit = none ∧
        0 < limit ∧ ip ∉ live ∧ limit ≤ live.dedup.length) ∨
      ∃ ips', ConnGuard.acquire ips ip limit = some ips' ∧ Counts (ip :: live) ips' ∧
        ¬(0 < limit ∧ ip ∉ live ∧ limit ≤ live.dedup.length) := by
  have hinsert := h.insert ip
  rw [ConnGuard.acquire, ← h.size_eq]
  cases hip : ips[ip]? with
  | some count =>
      obtain ⟨hcount, hpos⟩ := h.getElem?_eq_some hip
      rw [hcount] at hinsert
      have hlive : ip ∈ live := List.count_pos_iff.mp (by rw [hcount]; exact hpos)
      exact Or.inr ⟨_, rfl, hinsert, fun hfull => hfull.2.1 hlive⟩
  | none =>
      have hnew : ip ∉ live := (h.getElem?_eq_none_iff ip).mp hip
      rw [List.count_eq_zero_of_not_mem hnew] at hinsert
      by_cases hfull : 0 < limit ∧ limit ≤ ips.size
      · exact Or.inl ⟨if_pos hfull, hfull.1, hnew, hfull.2⟩
      · exact Or.inr ⟨_, if_neg hfull, hinsert, fun hfull' => hfull ⟨hfull'.1, hfull'.2.2⟩⟩

/-- A dropped guard is no longer counted. -/
theorem drop {ip : String} (h : Counts (ip :: live) ips) : Counts live (ConnGuard.drop ips ip) := by
  have hcount : ips[ip]? = some (live.count ip + 1) := by
    rw [h ip, List.count_cons_self, if_neg (Nat.succ_ne_zero _)]
  intro other
  rw [ConnGuard.drop, hcount]
  simp only [Nat.add_sub_cancel]
  have hothers : ip ≠ other → ips[other]? = if live.count other = 0 then none
      else some (live.count other) := by
    intro hne
    rw [h other, List.count_cons_of_ne hne]
  by_cases hlast : live.count ip = 0
  · rw [if_pos hlast, Std.HashMap.getElem?_erase]
    by_cases heq : ip = other
    · simp [← heq, hlast]
    · rw [hothers heq]
      simp [heq]
  · rw [if_neg hlast, Std.HashMap.getElem?_insert]
    by_cases heq : ip = other
    · simp [← heq, hlast]
    · rw [hothers heq]
      simp [heq]

end Counts

/-- A set and the IPs of the guards that are alive. -/
structure Slots where
  ips : UserIpSet
  live : List String

/-- A call of `acquire`, or the drop of a live guard by its place. -/
inductive SlotEvent where
  | acquire (ip : String) (limit : Nat)
  | drop (guard : Nat)

namespace Slots

def start : Slots := ⟨∅, []⟩

def step (s : Slots) : SlotEvent → Slots
  | .acquire ip limit =>
      match ConnGuard.acquire s.ips ip limit with
      | some ips => ⟨ips, ip :: s.live⟩
      | none => s
  | .drop guard =>
      match s.live[guard]? with
      | some ip => ⟨ConnGuard.drop s.ips ip, s.live.eraseIdx guard⟩
      | none => s

/-- The invariant of a run. -/
def Counted (s : Slots) : Prop :=
  Counts s.live s.ips

theorem step_counted {s : Slots} (h : s.Counted) (event : SlotEvent) : (step s event).Counted := by
  cases event with
  | acquire ip limit =>
      rw [step]
      rcases Counts.acquire h ip limit with ⟨hnone, -⟩ | ⟨ips', hsome, hcounts, -⟩
      · rw [hnone]
        exact h
      · rw [hsome]
        exact hcounts
  | drop guard =>
      rw [step]
      cases hguard : s.live[guard]? with
      | none => exact h
      | some ip =>
          obtain ⟨hlt, rfl⟩ := List.getElem?_eq_some_iff.mp hguard
          exact (Counts.perm h (List.getElem_cons_eraseIdx_perm hlt).symm).drop

theorem start_counted : start.Counted :=
  Counts.empty

theorem run_counted (events : List SlotEvent) : (Machine.run step start events).Counted := by
  have hstep : ∀ (s : Slots) (event : SlotEvent), s.Counted → (step s event).Counted := by
    intro s event h
    exact step_counted h event
  exact Machine.run_keeps hstep start_counted events

theorem dedup_step_le {s : Slots} (h : s.Counted) {bound : Nat}
    (hbound : s.live.dedup.length ≤ bound) {event : SlotEvent}
    (hlimit : ∀ ip limit, event = .acquire ip limit → 0 < limit ∧ limit ≤ bound) :
    (step s event).live.dedup.length ≤ bound := by
  cases event with
  | acquire ip limit =>
      obtain ⟨hpos, hle⟩ := hlimit ip limit rfl
      rw [step]
      rcases Counts.acquire h ip limit with ⟨hnone, -⟩ | ⟨ips', hsome, -, hroom⟩
      · rw [hnone]
        exact hbound
      · rw [hsome]
        by_cases hlive : ip ∈ s.live
        · rw [List.dedup_cons_of_mem hlive]
          exact hbound
        · rw [List.dedup_cons_of_notMem hlive, List.length_cons]
          have hless : ¬limit ≤ s.live.dedup.length := fun hfull => hroom ⟨hpos, hlive, hfull⟩
          omega
  | drop guard =>
      rw [step]
      cases s.live[guard]? with
      | none => exact hbound
      | some ip =>
          have hsub : (s.live.eraseIdx guard).dedup.Subperm s.live.dedup :=
            List.subperm_of_subset (List.nodup_dedup _) fun other hmem =>
              List.mem_dedup.mpr (List.mem_of_mem_eraseIdx (List.mem_dedup.mp hmem))
          exact Nat.le_trans hsub.length_le hbound

theorem run_dedup_le {bound : Nat} {events : List SlotEvent}
    (hlimit : ∀ ip limit, .acquire ip limit ∈ events → 0 < limit ∧ limit ≤ bound) :
    (Machine.run step start events).live.dedup.length ≤ bound := by
  have hstep : ∀ (s : Slots) (event : SlotEvent), (s.Counted ∧ s.live.dedup.length ≤ bound) →
      (∀ ip limit, event = .acquire ip limit → 0 < limit ∧ limit ≤ bound) →
      (step s event).Counted ∧ (step s event).live.dedup.length ≤ bound := by
    intro s event h hevent
    exact ⟨step_counted h.1 event, dedup_step_le h.1 h.2 hevent⟩
  refine (Machine.run_keeps_where hstep ⟨start_counted, Nat.zero_le _⟩ events ?_).2
  rintro before event after rfl ip limit rfl
  exact hlimit ip limit (List.mem_append_right _ (List.mem_cons_self ..))

/-- The accounting of the device slots of a user, at every point of every run. -/
theorem device_slots (events : List SlotEvent) :
    let s := Machine.run step start events
    (∀ ip : String,
      s.ips[ip]? = if s.live.count ip = 0 then none else some (s.live.count ip)) ∧
    s.ips.size = s.live.dedup.length ∧
    (∀ (guard : Nat) (ip : String), s.live[guard]? = some ip → ∃ count, s.ips[ip]? = some (count + 1)) ∧
    (s.live = [] → s.ips.isEmpty = true) ∧
    (∀ ip limit, ConnGuard.acquire s.ips ip limit = none ↔
      0 < limit ∧ ip ∉ s.live ∧ limit ≤ s.live.dedup.length) ∧
    (∀ ip limit, ConnGuard.acquire s.ips ip limit = none → step s (.acquire ip limit) = s) ∧
    ∀ bound, (∀ ip limit, .acquire ip limit ∈ events → 0 < limit ∧ limit ≤ bound) →
      s.live.dedup.length ≤ bound ∧ s.ips.size ≤ bound := by
  have h : Counts (Machine.run step start events).live (Machine.run step start events).ips :=
    run_counted events
  dsimp only
  generalize hs : Machine.run step start events = s at h ⊢
  refine ⟨h, h.size_eq, ?_, ?_, ?_, ?_, ?_⟩
  · intro guard ip hguard
    have hpos : 0 < s.live.count ip := List.count_pos_iff.mpr (List.mem_of_getElem? hguard)
    obtain ⟨count, hcount⟩ := Nat.exists_eq_succ_of_ne_zero (Nat.ne_of_gt hpos)
    exact ⟨count, by rw [h ip, hcount, if_neg (Nat.succ_ne_zero _)]⟩
  · intro hnone
    have hsize := h.size_eq
    rw [hnone] at hsize
    simpa [Std.HashMap.isEmpty_eq_size_eq_zero] using hsize
  · intro ip limit
    rcases Counts.acquire h ip limit with ⟨hrefused, hfull⟩ | ⟨ips', hsome, -, hroom⟩
    · exact ⟨fun _ => hfull, fun _ => hrefused⟩
    · rw [hsome]
      exact ⟨nofun, fun hfull => absurd hfull hroom⟩
  · intro ip limit hrefused
    rw [step, hrefused]
  · intro bound hlimit
    have hle := run_dedup_le hlimit
    rw [hs] at hle
    exact ⟨hle, by rw [h.size_eq]; exact hle⟩

end Slots

end SsrBackend
