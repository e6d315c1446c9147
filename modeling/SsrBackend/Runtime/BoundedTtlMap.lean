import Std.Data.HashMap.Lemmas
import Mathlib.Algebra.Order.Ring.Nat
import Mathlib.Data.List.Basic

/-!
The bounded map of `runtime/state.rs`. Instants are numbers, and every operation
that reads the clock takes the reading. A hash map is walked in no fixed order, so
the walk that finds the oldest entry is an argument too.
-/

namespace SsrBackend

/-- An order in which the items of a map come out. -/
structure Walk (α : Type) where
  order : List α → List α
  perm : ∀ items, (order items).Perm items

/-- `Iterator::min_by_key`: the first of the least items. -/
def minByKey {α : Type} (key : α → Nat) : List α → Option α
  | [] => none
  | x :: rest =>
      match minByKey key rest with
      | none => some x
      | some y => if key y < key x then some y else some x

structure Entry (ν : Type) where
  value : ν
  lastSeen : Nat

structure BoundedTtlMap (κ : Type) [BEq κ] [Hashable κ] (ν : Type) where
  ttl : Nat
  capacity : Nat
  map : Std.HashMap κ (Entry ν)

namespace BoundedTtlMap

variable {κ : Type} [BEq κ] [Hashable κ] {ν : Type}

def new (ttl capacity : Nat) : BoundedTtlMap κ ν := ⟨ttl, max capacity 1, ∅⟩

def evictExpired (m : BoundedTtlMap κ ν) (now : Nat) : BoundedTtlMap κ ν :=
  { m with map := m.map.filter fun _ entry => now - entry.lastSeen < m.ttl }

def expire (m : BoundedTtlMap κ ν) (now : Nat) : BoundedTtlMap κ ν := m.evictExpired now

def evictOldest (m : BoundedTtlMap κ ν) (walk : Walk (κ × Entry ν)) : BoundedTtlMap κ ν :=
  match minByKey (fun item => item.2.lastSeen) (walk.order m.map.toList) with
  | some (oldest, _) => { m with map := m.map.erase oldest }
  | none => m

def touch (m : BoundedTtlMap κ ν) (key : κ) (now : Nat) : Option ν × BoundedTtlMap κ ν :=
  match m.map[key]? with
  | some entry => (some entry.value, { m with map := m.map.insert key ⟨entry.value, now⟩ })
  | none => (none, m)

def insert (m : BoundedTtlMap κ ν) (key : κ) (value : ν) (now : Nat)
    (walk : Walk (κ × Entry ν)) : BoundedTtlMap κ ν :=
  let m := m.evictExpired now
  let m := if key ∉ m.map ∧ m.capacity ≤ m.map.size then m.evictOldest walk else m
  { m with map := m.map.insert key ⟨value, now⟩ }

/-- A key that is there is only touched, expired or not. -/
def touchOrInsertWith (m : BoundedTtlMap κ ν) (key : κ) (makeValue : Unit → ν) (now : Nat)
    (walk : Walk (κ × Entry ν)) : BoundedTtlMap κ ν :=
  match m.map[key]? with
  | some entry => { m with map := m.map.insert key ⟨entry.value, now⟩ }
  | none =>
      let m := m.evictExpired now
      let m := if m.capacity ≤ m.map.size then m.evictOldest walk else m
      { m with map := m.map.insert key ⟨makeValue (), now⟩ }

def retain (m : BoundedTtlMap κ ν) (keep : κ → ν → Bool) : BoundedTtlMap κ ν :=
  { m with map := m.map.filter fun key entry => keep key entry.value }

def len (m : BoundedTtlMap κ ν) : Nat := m.map.size

/-- The value of a key, whenever it was last seen. -/
def value? (m : BoundedTtlMap κ ν) (key : κ) : Option ν := (m.map[key]?).map Entry.value

theorem touch_fst (m : BoundedTtlMap κ ν) (key : κ) (now : Nat) :
    (m.touch key now).1 = m.value? key := by
  unfold touch value?
  cases m.map[key]? with
  | none => rfl
  | some entry => rfl

theorem insert_ttl (m : BoundedTtlMap κ ν) (key : κ) (value : ν) (now : Nat)
    (walk : Walk (κ × Entry ν)) : (m.insert key value now walk).ttl = m.ttl := by
  unfold insert evictOldest
  dsimp only
  split
  · split
    · rfl
    · rfl
  · rfl

variable [LawfulBEq κ]

theorem value?_evictExpired {m : BoundedTtlMap κ ν} {now : Nat} {key : κ} {value : ν}
    (h : (m.evictExpired now).value? key = some value) : m.value? key = some value := by
  simp only [value?, evictExpired, Std.HashMap.getElem?_filter'] at h
  cases hkey : m.map[key]? with
  | none => simp [hkey] at h
  | some entry =>
      rw [hkey, Option.filter] at h
      split at h
      · simpa [value?, hkey] using h
      · cases h

theorem value?_retain {m : BoundedTtlMap κ ν} {keep : κ → ν → Bool} {key : κ} {value : ν}
    (h : (m.retain keep).value? key = some value) : m.value? key = some value := by
  simp only [value?, retain, Std.HashMap.getElem?_filter'] at h
  cases hkey : m.map[key]? with
  | none => simp [hkey] at h
  | some entry =>
      rw [hkey, Option.filter] at h
      split at h
      · simpa [value?, hkey] using h
      · cases h

theorem value?_evictOldest {m : BoundedTtlMap κ ν} {walk : Walk (κ × Entry ν)} {key : κ}
    {value : ν} (h : (m.evictOldest walk).value? key = some value) : m.value? key = some value := by
  unfold evictOldest at h
  split at h
  · simp only [value?, Std.HashMap.getElem?_erase] at h
    split at h
    · cases h
    · exact h
  · exact h

theorem insert_self (m : BoundedTtlMap κ ν) (key : κ) (value : ν) (now : Nat)
    (walk : Walk (κ × Entry ν)) : (m.insert key value now walk).map[key]? = some ⟨value, now⟩ :=
  Std.HashMap.getElem?_insert_self

/-- An entry that was seen lately does not expire. -/
theorem expire_of_lt {m : BoundedTtlMap κ ν} {now : Nat} {key : κ} {entry : Entry ν}
    (hkey : m.map[key]? = some entry) (hseen : now - entry.lastSeen < m.ttl) :
    (m.expire now).map[key]? = some entry := by
  rw [expire, evictExpired, Std.HashMap.getElem?_filter', hkey, Option.filter_some,
    if_pos (by simpa using hseen)]

/-- An insert puts in its own value; every other value was there. -/
theorem value?_insert {m : BoundedTtlMap κ ν} {key key' : κ} {value value' : ν} {now : Nat}
    {walk : Walk (κ × Entry ν)} (h : (m.insert key value now walk).value? key' = some value') :
    (key' = key ∧ value' = value) ∨ (key' ≠ key ∧ m.value? key' = some value') := by
  simp only [value?, insert, Std.HashMap.getElem?_insert] at h
  by_cases heq : key = key'
  · rw [if_pos (by simpa using heq)] at h
    left
    exact ⟨heq.symm, by simpa using h.symm⟩
  · rw [if_neg (by simpa using heq)] at h
    right
    refine ⟨fun h => heq h.symm, ?_⟩
    split at h
    · exact value?_evictExpired (value?_evictOldest h)
    · exact value?_evictExpired h

/-- A touch changes no value. -/
theorem value?_touch (m : BoundedTtlMap κ ν) (key key' : κ) (now : Nat) :
    (m.touch key now).2.value? key' = m.value? key' := by
  unfold touch
  cases hkey : m.map[key]? with
  | none => rfl
  | some entry =>
      simp only [value?, Std.HashMap.getElem?_insert]
      by_cases heq : key = key'
      · rw [if_pos (by simpa using heq), ← heq, hkey]
        rfl
      · rw [if_neg (by simpa using heq)]

end BoundedTtlMap

end SsrBackend
