import Mathlib.Algebra.Order.Ring.Nat
import Mathlib.Data.List.Basic

/-!
A queue of bounded length, as a socket buffer is one: bytes leave at the front,
any number at a time, and enter at the back as long as they fit.
-/

universe u

/-- A queue whose items fit its capacity. -/
structure BoundedQueue (α : Type u) (capacity : Nat) where
  items : List α
  fits : items.length ≤ capacity

namespace BoundedQueue

variable {α : Type u} {capacity : Nat}

def empty : BoundedQueue α capacity := ⟨[], Nat.zero_le _⟩

/-- The first `n` items and the queue without them; at least one item moves. -/
def take (q : BoundedQueue α capacity) (n : Nat) : Option (List α × BoundedQueue α capacity) :=
  if 0 < n ∧ n ≤ q.items.length then
    some (q.items.take n, ⟨q.items.drop n, Nat.le_trans (List.drop_sublist n q.items).length_le q.fits⟩)
  else none

/-- The queue with `xs` at its back, when there are some and they fit. -/
def put (q : BoundedQueue α capacity) (xs : List α) : Option (BoundedQueue α capacity) :=
  if h : xs ≠ [] ∧ q.items.length + xs.length ≤ capacity then
    some ⟨q.items ++ xs, List.length_append ▸ h.2⟩
  else none

def Full (q : BoundedQueue α capacity) : Prop := q.items.length = capacity

instance (q : BoundedQueue α capacity) : Decidable q.Full :=
  inferInstanceAs (Decidable (_ = _))

theorem take_eq_some {q : BoundedQueue α capacity} {n : Nat} {front : List α}
    {rest : BoundedQueue α capacity} (h : q.take n = some (front, rest)) :
    0 < n ∧ n ≤ q.items.length ∧ front = q.items.take n ∧ rest.items = q.items.drop n := by
  unfold take at h
  split at h
  · rename_i hn
    cases h
    exact ⟨hn.1, hn.2, rfl, rfl⟩
  · cases h

theorem take_ne_nil {q : BoundedQueue α capacity} {n : Nat} {front : List α}
    {rest : BoundedQueue α capacity} (h : q.take n = some (front, rest)) : front ≠ [] := by
  obtain ⟨hpos, hle, rfl, -⟩ := take_eq_some h
  apply List.ne_nil_of_length_pos
  rw [List.length_take]
  omega

theorem take_of_items {q : BoundedQueue α capacity} {front rest : List α}
    (h : q.items = front ++ rest) (hfront : front ≠ []) :
    ∃ fits, q.take front.length = some (front, ⟨rest, fits⟩) := by
  refine ⟨?_, ?_⟩
  · have hfits := q.fits
    rw [h, List.length_append] at hfits
    omega
  · rw [take, if_pos ⟨List.length_pos_iff.mpr hfront, by simp [h]⟩]
    simp [h]

theorem put_of_fits {q : BoundedQueue α capacity} {xs : List α} (hxs : xs ≠ [])
    (hfits : q.items.length + xs.length ≤ capacity) :
    ∃ fits, q.put xs = some ⟨q.items ++ xs, fits⟩ :=
  ⟨_, dif_pos ⟨hxs, hfits⟩⟩

theorem isSome_take {q : BoundedQueue α capacity} {n : Nat} :
    (q.take n).isSome = true ↔ 0 < n ∧ n ≤ q.items.length := by
  unfold take
  split
  · exact iff_of_true rfl ‹_›
  · exact iff_of_false nofun ‹_›

theorem isSome_put {q : BoundedQueue α capacity} {xs : List α} :
    (q.put xs).isSome = true ↔ xs ≠ [] ∧ q.items.length + xs.length ≤ capacity := by
  unfold put
  split
  · exact iff_of_true rfl ‹_›
  · exact iff_of_false nofun ‹_›

/-- The first bytes of a longer write: the queue takes them when it has the room. -/
theorem isSome_put_take {q : BoundedQueue α capacity} {xs : List α} (hxs : xs ≠ []) {n : Nat} :
    (q.put (xs.take n)).isSome = true ↔ 0 < n ∧ min n xs.length ≤ capacity - q.items.length := by
  have hfits := q.fits
  have htake : xs.take n ≠ [] ↔ 0 < n := by
    rw [Ne, List.take_eq_nil_iff]
    constructor
    · intro h
      exact Nat.pos_of_ne_zero fun hn => h (Or.inl hn)
    · rintro hn (hzero | hnil)
      · omega
      · exact hxs hnil
  rw [isSome_put, htake, List.length_take]
  omega

end BoundedQueue
