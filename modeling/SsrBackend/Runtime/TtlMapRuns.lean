import Mathlib.Data.List.Induction
import SsrBackend.Foundation.Machine
import SsrBackend.Runtime.BoundedTtlMap

/-!
Runs of a `BoundedTtlMap`: its bound, where its timestamps come from, and what an
insert leaves. The clock may read anything; the laws do not rest on its order.
-/

namespace SsrBackend

theorem minByKey_eq_none {α : Type} {key : α → Nat} {items : List α}
    (h : minByKey key items = none) : items = [] := by
  cases items with
  | nil => rfl
  | cons x rest =>
      rw [minByKey] at h
      split at h
      · cases h
      · split at h
        · cases h
        · cases h

theorem minByKey_eq_some {α : Type} {key : α → Nat} {items : List α} {least : α}
    (h : minByKey key items = some least) :
    least ∈ items ∧ ∀ item ∈ items, key least ≤ key item := by
  induction items generalizing least with
  | nil => cases h
  | cons x rest ih =>
      rw [minByKey] at h
      cases hrest : minByKey key rest with
      | none =>
          rw [hrest] at h
          cases h
          rw [minByKey_eq_none hrest]
          refine ⟨List.mem_singleton_self x, ?_⟩
          intro item hmem
          exact Nat.le_of_eq (congrArg key (List.mem_singleton.mp hmem).symm)
      | some y =>
          obtain ⟨hy, hleast⟩ := ih hrest
          rw [hrest] at h
          dsimp only at h
          split at h
          · rename_i hlt
            cases h
            refine ⟨List.mem_cons_of_mem x hy, ?_⟩
            intro item hmem
            cases List.mem_cons.mp hmem with
            | inl heq =>
                rw [heq]
                exact Nat.le_of_lt hlt
            | inr hmem => exact hleast item hmem
          · rename_i hge
            cases h
            refine ⟨List.mem_cons_self .., ?_⟩
            intro item hmem
            cases List.mem_cons.mp hmem with
            | inl heq => exact Nat.le_of_eq (congrArg key heq.symm)
            | inr hmem => exact Nat.le_trans (Nat.le_of_not_lt hge) (hleast item hmem)

namespace BoundedTtlMap

variable {κ : Type} [BEq κ] [Hashable κ] [LawfulBEq κ] {ν : Type}

/-- The entry of a key, unless its time has run out. -/
def unexpired (m : BoundedTtlMap κ ν) (now : Nat) (key : κ) : Option (Entry ν) :=
  (m.map[key]?).filter fun entry => now - entry.lastSeen < m.ttl

theorem evictExpired_map (m : BoundedTtlMap κ ν) (now : Nat) (key : κ) :
    (m.evictExpired now).map[key]? = m.unexpired now key :=
  Std.HashMap.getElem?_filter'

theorem evictExpired_size (m : BoundedTtlMap κ ν) (now : Nat) :
    (m.evictExpired now).map.size ≤ m.map.size :=
  Std.HashMap.size_filter_le_size

/-- An entry that no other is older than goes. -/
theorem evictOldest_cases (m : BoundedTtlMap κ ν) (walk : Walk (κ × Entry ν)) :
    (m.evictOldest walk = m ∧ m.map.size = 0) ∨
      ∃ oldest entry, m.map[oldest]? = some entry ∧
        (∀ (key : κ) (other : Entry ν), m.map[key]? = some other → entry.lastSeen ≤ other.lastSeen) ∧
        m.evictOldest walk = { m with map := m.map.erase oldest } := by
  rw [evictOldest]
  have hperm := walk.perm m.map.toList
  cases hmin : minByKey (fun item => item.2.lastSeen) (walk.order m.map.toList) with
  | none =>
      refine Or.inl ⟨rfl, ?_⟩
      rw [← Std.HashMap.length_toList, ← hperm.length_eq, minByKey_eq_none hmin]
      rfl
  | some item =>
      obtain ⟨oldest, entry⟩ := item
      obtain ⟨hmem, hleast⟩ := minByKey_eq_some hmin
      refine Or.inr ⟨oldest, entry, ?_, ?_, rfl⟩
      · exact Std.HashMap.mem_toList_iff_getElem?_eq_some.mp (hperm.mem_iff.mp hmem)
      · intro key other hother
        have hitem := Std.HashMap.mem_toList_iff_getElem?_eq_some.mpr hother
        exact hleast (key, other) (hperm.mem_iff.mpr hitem)

/-- What an insert leaves: the new entry, and the unexpired ones less the oldest where there is
no room. -/
def Inserts (m : BoundedTtlMap κ ν) (key : κ) (value : ν) (now : Nat) (m' : BoundedTtlMap κ ν) :
    Prop :=
  m'.map[key]? = some ⟨value, now⟩ ∧
  ((¬(m.unexpired now key = none ∧ (m.expire now).map.size = m.capacity) ∧
      ∀ other, other ≠ key → m'.map[other]? = m.unexpired now other) ∨
    (m.unexpired now key = none ∧ (m.expire now).map.size = m.capacity ∧
      ∃ oldest entry, oldest ≠ key ∧ m.unexpired now oldest = some entry ∧
        (∀ other entry', m.unexpired now other = some entry' → entry.lastSeen ≤ entry'.lastSeen) ∧
        m'.map[oldest]? = none ∧
        ∀ other, other ≠ key → other ≠ oldest → m'.map[other]? = m.unexpired now other))

theorem mem_evictExpired (m : BoundedTtlMap κ ν) (now : Nat) (key : κ) :
    key ∉ (m.evictExpired now).map ↔ m.unexpired now key = none := by
  rw [← evictExpired_map, Std.HashMap.mem_iff_isSome_getElem?, Option.not_isSome_iff_eq_none]

theorem insert_inserts {m : BoundedTtlMap κ ν} (hcapacity : 0 < m.capacity)
    (hsize : m.map.size ≤ m.capacity) (key : κ) (value : ν) (now : Nat)
    (walk : Walk (κ × Entry ν)) : Inserts m key value now (m.insert key value now walk) := by
  refine ⟨insert_self m key value now walk, ?_⟩
  have hle : (m.expire now).map.size ≤ m.capacity :=
    Nat.le_trans (evictExpired_size m now) hsize
  have hother : ∀ {m' : BoundedTtlMap κ ν} {other : κ}, other ≠ key →
      (m'.map.insert key ⟨value, now⟩)[other]? = m'.map[other]? := by
    intro m' other hne
    rw [Std.HashMap.getElem?_insert, if_neg (by simpa using Ne.symm hne)]
  rw [insert]
  by_cases hfull : m.unexpired now key = none ∧ (m.expire now).map.size = m.capacity
  · have hcond : key ∉ (m.evictExpired now).map ∧
        (m.evictExpired now).capacity ≤ (m.evictExpired now).map.size :=
      ⟨(mem_evictExpired m now key).mpr hfull.1, Nat.le_of_eq hfull.2.symm⟩
    rw [if_pos hcond]
    refine Or.inr ⟨hfull.1, hfull.2, ?_⟩
    rcases evictOldest_cases (m.evictExpired now) walk with
      ⟨-, hzero⟩ | ⟨oldest, entry, hold, hleast, hevict⟩
    · have hnone : (m.expire now).map.size = 0 := hzero
      omega
    · rw [evictExpired_map] at hold
      have hne : oldest ≠ key := by
        intro heq
        rw [heq, hfull.1] at hold
        cases hold
      rw [hevict]
      refine ⟨oldest, entry, hne, hold, ?_, ?_, ?_⟩
      · intro other entry' hentry
        rw [← evictExpired_map] at hentry
        exact hleast other entry' hentry
      · rw [hother hne]
        exact Std.HashMap.getElem?_erase_self
      · intro other hkey hold'
        rw [hother hkey]
        dsimp only
        rw [Std.HashMap.getElem?_erase, if_neg (by simpa using Ne.symm hold'), evictExpired_map]
  · have hcond : ¬(key ∉ (m.evictExpired now).map ∧
        (m.evictExpired now).capacity ≤ (m.evictExpired now).map.size) := by
      intro hcond
      exact hfull ⟨(mem_evictExpired m now key).mp hcond.1, Nat.le_antisymm hle hcond.2⟩
    rw [if_neg hcond]
    refine Or.inl ⟨hfull, ?_⟩
    intro other hne
    rw [hother hne, evictExpired_map]

theorem touchOrInsertWith_of_absent {m : BoundedTtlMap κ ν} {key : κ} (h : m.map[key]? = none)
    (makeValue : Unit → ν) (now : Nat) (walk : Walk (κ × Entry ν)) :
    m.touchOrInsertWith key makeValue now walk = m.insert key (makeValue ()) now walk := by
  have habsent : key ∉ (m.evictExpired now).map := by
    rw [mem_evictExpired, unexpired, h, Option.filter_none]
  rw [touchOrInsertWith, h, insert]
  dsimp only
  by_cases hfull : (m.evictExpired now).capacity ≤ (m.evictExpired now).map.size
  · rw [if_pos hfull, if_pos ⟨habsent, hfull⟩]
  · rw [if_neg hfull, if_neg fun h => hfull h.2]

omit [LawfulBEq κ] in
theorem touchOrInsertWith_of_present {m : BoundedTtlMap κ ν} {key : κ} {entry : Entry ν}
    (h : m.map[key]? = some entry) (makeValue : Unit → ν) (now : Nat)
    (walk : Walk (κ × Entry ν)) :
    m.touchOrInsertWith key makeValue now walk = (m.touch key now).2 := by
  rw [touchOrInsertWith, touch, h]

/-- The entries after an insert: the new one, and others that were there. -/
theorem insert_entry {m : BoundedTtlMap κ ν} {key key' : κ} {value : ν} {now : Nat}
    {walk : Walk (κ × Entry ν)} {entry : Entry ν}
    (h : (m.insert key value now walk).map[key']? = some entry) :
    (key' = key ∧ entry = ⟨value, now⟩) ∨ (key' ≠ key ∧ m.map[key']? = some entry) := by
  by_cases heq : key' = key
  · rw [heq, insert_self] at h
    cases h
    exact Or.inl ⟨heq, rfl⟩
  · refine Or.inr ⟨heq, ?_⟩
    have hexpired : (m.evictExpired now).map[key']? = some entry → m.map[key']? = some entry := by
      intro hentry
      rw [evictExpired_map] at hentry
      exact (Option.filter_eq_some_iff.mp hentry).1
    rw [insert] at h
    dsimp only at h
    rw [Std.HashMap.getElem?_insert, if_neg (by simpa using Ne.symm heq)] at h
    split at h
    · rcases evictOldest_cases (m.evictExpired now) walk with
        ⟨hsame, -⟩ | ⟨oldest, -, -, -, hevict⟩
      · rw [hsame] at h
        exact hexpired h
      · rw [hevict, Std.HashMap.getElem?_erase] at h
        split at h
        · cases h
        · exact hexpired h
    · exact hexpired h

theorem touch_entry {m : BoundedTtlMap κ ν} {key key' : κ} {now : Nat} {entry : Entry ν}
    (h : (m.touch key now).2.map[key']? = some entry) :
    (key' = key ∧ entry.lastSeen = now) ∨ (key' ≠ key ∧ m.map[key']? = some entry) := by
  rw [touch] at h
  cases hkey : m.map[key]? with
  | none =>
      rw [hkey] at h
      refine Or.inr ⟨?_, h⟩
      intro heq
      have hnone : m.map[key']? = none := by rw [heq, hkey]
      exact absurd (h.symm.trans hnone) nofun
  | some old =>
      rw [hkey] at h
      dsimp only at h
      rw [Std.HashMap.getElem?_insert] at h
      split at h
      · rename_i heq
        cases h
        exact Or.inl ⟨(eq_of_beq heq).symm, rfl⟩
      · rename_i hne
        exact Or.inr ⟨fun heq => hne (by simpa using heq.symm), h⟩

end BoundedTtlMap

/-- A call of one of the operations that change a map, with the reading of the clock. -/
inductive TtlOp (κ ν : Type) where
  | insert (key : κ) (value : ν) (now : Nat) (walk : Walk (κ × Entry ν))
  | touch (key : κ) (now : Nat)
  | touchOrInsertWith (key : κ) (makeValue : Unit → ν) (now : Nat) (walk : Walk (κ × Entry ν))
  | expire (now : Nat)
  | retain (keep : κ → ν → Bool)

/-- The key that a call inserts or touches, and when. -/
def TtlOp.use? {κ ν : Type} : TtlOp κ ν → Option (κ × Nat)
  | insert key _ now _ => some (key, now)
  | touch key now => some (key, now)
  | touchOrInsertWith key _ now _ => some (key, now)
  | expire _ => none
  | retain _ => none

namespace BoundedTtlMap

variable {κ : Type} [BEq κ] [Hashable κ] {ν : Type}

def step (m : BoundedTtlMap κ ν) : TtlOp κ ν → BoundedTtlMap κ ν
  | .insert key value now walk => m.insert key value now walk
  | .touch key now => (m.touch key now).2
  | .touchOrInsertWith key makeValue now walk => m.touchOrInsertWith key makeValue now walk
  | .expire now => m.expire now
  | .retain keep => m.retain keep

/-- The bound of a map that was made for `capacity` entries. -/
structure Bounded (ttl capacity : Nat) (m : BoundedTtlMap κ ν) : Prop where
  ttl_eq : m.ttl = ttl
  capacity_eq : m.capacity = max capacity 1
  size_le : m.map.size ≤ max capacity 1

theorem new_bounded (ttl capacity : Nat) :
    Bounded ttl capacity (new ttl capacity : BoundedTtlMap κ ν) := by
  refine ⟨rfl, rfl, ?_⟩
  rw [new, Std.HashMap.size_empty]
  exact Nat.zero_le _

variable [LawfulBEq κ]

theorem evictExpired_bounded {ttl capacity : Nat} {m : BoundedTtlMap κ ν}
    (h : m.Bounded ttl capacity) (now : Nat) : (m.evictExpired now).Bounded ttl capacity :=
  ⟨h.ttl_eq, h.capacity_eq, Nat.le_trans (evictExpired_size m now) h.size_le⟩

theorem insert_bounded {ttl capacity : Nat} {m : BoundedTtlMap κ ν} (h : m.Bounded ttl capacity)
    (key : κ) (value : ν) (now : Nat) (walk : Walk (κ × Entry ν)) :
    (m.insert key value now walk).Bounded ttl capacity := by
  have hbase := evictExpired_bounded h now
  rw [insert]
  generalize m.evictExpired now = base at hbase ⊢
  by_cases hfull : key ∉ base.map ∧ base.capacity ≤ base.map.size
  · rw [if_pos hfull]
    rcases evictOldest_cases base walk with ⟨-, hzero⟩ | ⟨oldest, entry, hold, -, hevict⟩
    · have hcapacity := hbase.capacity_eq
      omega
    · have hmem : oldest ∈ base.map := by
        rw [Std.HashMap.mem_iff_isSome_getElem?, hold]
        rfl
      rw [hevict]
      refine ⟨hbase.ttl_eq, hbase.capacity_eq, ?_⟩
      have hsize := Std.HashMap.size_insert_le (m := base.map.erase oldest) (k := key)
        (v := (⟨value, now⟩ : Entry ν))
      have herase := Std.HashMap.size_erase (m := base.map) (k := oldest)
      rw [if_pos hmem] at herase
      have hbound := hbase.size_le
      dsimp only
      omega
  · rw [if_neg hfull]
    refine ⟨hbase.ttl_eq, hbase.capacity_eq, ?_⟩
    have hcapacity := hbase.capacity_eq
    have hbound := hbase.size_le
    dsimp only
    rw [Std.HashMap.size_insert]
    split
    · exact hbound
    · rename_i hnew
      have hroom : ¬base.capacity ≤ base.map.size := fun hle => hfull ⟨hnew, hle⟩
      omega

theorem touch_bounded {ttl capacity : Nat} {m : BoundedTtlMap κ ν} (h : m.Bounded ttl capacity)
    (key : κ) (now : Nat) : (m.touch key now).2.Bounded ttl capacity := by
  rw [touch]
  cases hkey : m.map[key]? with
  | none => exact h
  | some entry =>
      refine ⟨h.ttl_eq, h.capacity_eq, ?_⟩
      dsimp only
      rw [Std.HashMap.size_insert, if_pos]
      · exact h.size_le
      · rw [Std.HashMap.mem_iff_isSome_getElem?, hkey]
        rfl

theorem step_bounded {ttl capacity : Nat} {m : BoundedTtlMap κ ν} (h : m.Bounded ttl capacity)
    (op : TtlOp κ ν) : (m.step op).Bounded ttl capacity := by
  cases op with
  | insert key value now walk => exact insert_bounded h key value now walk
  | touch key now => exact touch_bounded h key now
  | touchOrInsertWith key makeValue now walk =>
      rw [step]
      cases hkey : m.map[key]? with
      | none =>
          rw [touchOrInsertWith_of_absent hkey]
          exact insert_bounded h key _ now walk
      | some entry =>
          rw [touchOrInsertWith_of_present hkey]
          exact touch_bounded h key now
  | expire now => exact evictExpired_bounded h now
  | retain keep =>
      exact ⟨h.ttl_eq, h.capacity_eq, Nat.le_trans Std.HashMap.size_filter_le_size h.size_le⟩

theorem run_bounded (ttl capacity : Nat) (ops : List (TtlOp κ ν)) :
    (Machine.run step (new ttl capacity : BoundedTtlMap κ ν) ops).Bounded ttl capacity := by
  have hstep : ∀ (m : BoundedTtlMap κ ν) (op : TtlOp κ ν), m.Bounded ttl capacity →
      (m.step op).Bounded ttl capacity := by
    intro m op h
    exact step_bounded h op
  exact Machine.run_keeps hstep (new_bounded ttl capacity) ops

/-- A call dates the entry of the key it uses, and every other entry is older than the call. -/
theorem step_entry {m : BoundedTtlMap κ ν} {op : TtlOp κ ν} {key : κ} {entry : Entry ν}
    (h : (m.step op).map[key]? = some entry) :
    op.use? = some (key, entry.lastSeen) ∨
      ((∀ now, op.use? ≠ some (key, now)) ∧ m.map[key]? = some entry) := by
  have hused : ∀ {key' : κ} {now' : Nat}, key ≠ key' →
      ∀ now, some (key', now') ≠ some (key, now) := by
    intro key' now' hne now heq
    exact hne (Prod.mk.inj (Option.some.inj heq)).1.symm
  have htouch : ∀ {key' : κ} {now' : Nat}, (m.touch key' now').2.map[key]? = some entry →
      some (key', now') = some (key, entry.lastSeen) ∨
        ((∀ now, some (key', now') ≠ some (key, now)) ∧ m.map[key]? = some entry) := by
    intro key' now' h
    rcases touch_entry h with ⟨hkey, hseen⟩ | ⟨hne, hold⟩
    · exact Or.inl (by rw [hkey, hseen])
    · exact Or.inr ⟨hused hne, hold⟩
  have hinsert : ∀ {key' : κ} {value : ν} {now' : Nat} {walk : Walk (κ × Entry ν)},
      (m.insert key' value now' walk).map[key]? = some entry →
      some (key', now') = some (key, entry.lastSeen) ∨
        ((∀ now, some (key', now') ≠ some (key, now)) ∧ m.map[key]? = some entry) := by
    intro key' value now' walk h
    rcases insert_entry h with ⟨hkey, hentry⟩ | ⟨hne, hold⟩
    · exact Or.inl (by rw [hkey, hentry])
    · exact Or.inr ⟨hused hne, hold⟩
  cases op with
  | insert key' value now' walk => exact hinsert h
  | touch key' now' => exact htouch h
  | touchOrInsertWith key' makeValue now' walk =>
      rw [step] at h
      cases hkey : m.map[key']? with
      | none =>
          rw [touchOrInsertWith_of_absent hkey] at h
          exact hinsert h
      | some entry' =>
          rw [touchOrInsertWith_of_present hkey] at h
          exact htouch h
  | expire now' =>
      rw [step, expire, evictExpired_map] at h
      exact Or.inr ⟨by rintro _ ⟨⟩, (Option.filter_eq_some_iff.mp h).1⟩
  | retain keep =>
      rw [step, retain, Std.HashMap.getElem?_filter'] at h
      exact Or.inr ⟨by rintro _ ⟨⟩, (Option.filter_eq_some_iff.mp h).1⟩

/-- The latest call that used a key was at `seen`, and the key has been in the map since. -/
def LastUse (m : BoundedTtlMap κ ν) (ops : List (TtlOp κ ν)) (key : κ) (seen : Nat) : Prop :=
  ∃ before op after, ops = before ++ op :: after ∧ op.use? = some (key, seen) ∧
    (∀ op' ∈ after, ∀ now, op'.use? ≠ some (key, now)) ∧
    ∀ mid rest, after = mid ++ rest → key ∈ (Machine.run step m (before ++ op :: mid)).map

theorem run_lastUse {m : BoundedTtlMap κ ν} (hempty : ∀ key : κ, m.map[key]? = none)
    (ops : List (TtlOp κ ν)) {key : κ} {entry : Entry ν}
    (h : (Machine.run step m ops).map[key]? = some entry) : LastUse m ops key entry.lastSeen := by
  -- Induction on the last call: it used the key, or the key was there before it.
  induction ops using List.reverseRecOn generalizing entry with
  | nil =>
      rw [Machine.run_nil, hempty key] at h
      cases h
  | append_singleton ops op ih =>
      have hmem : key ∈ (Machine.run step m (ops ++ [op])).map := by
        rw [Std.HashMap.mem_iff_isSome_getElem?, h]
        rfl
      rw [Machine.run_append, Machine.run_cons, Machine.run_nil] at h
      rcases step_entry h with huse | ⟨hunused, hold⟩
      · refine ⟨ops, op, [], rfl, huse, nofun, ?_⟩
        intro mid rest heq
        rw [(List.append_eq_nil_iff.mp heq.symm).1]
        exact hmem
      · obtain ⟨before, op', after, hops, huse, hafter, hthere⟩ := ih hold
        refine ⟨before, op', after ++ [op], ?_, huse, ?_, ?_⟩
        · rw [hops, List.append_assoc, List.cons_append]
        · intro other hother
          cases List.mem_append.mp hother with
          | inl hother => exact hafter other hother
          | inr hother =>
              rw [List.mem_singleton.mp hother]
              exact hunused
        · intro mid rest heq
          rcases List.eq_nil_or_concat rest with hrest | ⟨rest', last, hrest⟩
          · rw [hrest, List.append_nil] at heq
            rw [← heq, ← List.cons_append, ← List.append_assoc, ← hops]
            exact hmem
          · rw [hrest, List.concat_eq_append, ← List.append_assoc] at heq
            exact hthere mid rest' (List.append_inj_left' heq rfl)

/-- The map is a least-recently-used one of bounded size, whose entries expire lazily. -/
theorem bounded_ttl_map_laws (ttl capacity : Nat) (ops : List (TtlOp κ ν)) :
    let m := Machine.run step (new ttl capacity) ops
    m.ttl = ttl ∧ m.capacity = max capacity 1 ∧ m.len ≤ max capacity 1 ∧
    (∀ (key : κ) (entry : Entry ν), m.map[key]? = some entry →
      LastUse (new ttl capacity) ops key entry.lastSeen) ∧
    (∀ (now : Nat) (key : κ) (entry : Entry ν), (m.expire now).map[key]? = some entry ↔
      m.map[key]? = some entry ∧ now - entry.lastSeen < ttl) ∧
    (∀ (key : κ) (value : ν) (now : Nat) (walk : Walk (κ × Entry ν)),
      Inserts m key value now (m.insert key value now walk)) ∧
    ∀ (key : κ) (makeValue : Unit → ν) (now : Nat) (walk : Walk (κ × Entry ν)), key ∉ m.map →
      Inserts m key (makeValue ()) now (m.touchOrInsertWith key makeValue now walk) := by
  have hbounded := run_bounded (κ := κ) (ν := ν) ttl capacity ops
  have hempty : ∀ key : κ, (new ttl capacity : BoundedTtlMap κ ν).map[key]? = none :=
    fun _ => Std.HashMap.getElem?_empty
  have hlast : ∀ (key : κ) (entry : Entry ν),
      (Machine.run step (new ttl capacity) ops).map[key]? = some entry →
      LastUse (new ttl capacity) ops key entry.lastSeen := by
    intro key entry hentry
    exact run_lastUse hempty ops hentry
  dsimp only
  generalize Machine.run step (new ttl capacity) ops = m at hbounded hlast ⊢
  have hpos : 0 < m.capacity := by
    rw [hbounded.capacity_eq]
    exact Nat.lt_of_lt_of_le Nat.zero_lt_one (Nat.le_max_right ..)
  have hsize : m.map.size ≤ m.capacity := by
    rw [hbounded.capacity_eq]
    exact hbounded.size_le
  refine ⟨hbounded.ttl_eq, hbounded.capacity_eq, hbounded.size_le, hlast, ?_, ?_, ?_⟩
  · intro now key entry
    rw [expire, evictExpired_map, unexpired, Option.filter_eq_some_iff, hbounded.ttl_eq,
      decide_eq_true_eq]
  · intro key value now walk
    exact insert_inserts hpos hsize key value now walk
  · intro key makeValue now walk habsent
    have hnone : m.map[key]? = none := by
      rw [Std.HashMap.mem_iff_isSome_getElem?, Option.not_isSome_iff_eq_none] at habsent
      exact habsent
    rw [touchOrInsertWith_of_absent hnone]
    exact insert_inserts hpos hsize key _ now walk

/-- A map for no entries holds one. -/
theorem bounded_ttl_map_of_zero :
    let walk : Walk (Nat × Entry String) := ⟨id, fun _ => .refl _⟩
    let m : BoundedTtlMap Nat String := Machine.run step (new 10 0) [.insert 1 "a" 3 walk]
    m.len ≤ 1 ∧ Inserts m 2 "b" 4 (m.insert 2 "b" 4 walk) := by
  intro walk m
  obtain ⟨-, -, hlen, -, -, hinsert, -⟩ := bounded_ttl_map_laws 10 0 [.insert 1 "a" 3 walk]
  exact ⟨hlen, hinsert 2 "b" 4 walk⟩

end BoundedTtlMap

end SsrBackend
