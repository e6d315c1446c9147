import Mathlib.Algebra.Order.Ring.Nat
import Mathlib.Data.List.Basic
import Mathlib.Algebra.BigOperators.Group.List.Basic
import Mathlib.Data.List.Nodup

/-!
Sums of the amounts of a list under one key, as an account adds up the entries of
one party.
-/

universe u v

variable {α : Type u} {κ : Type v} [DecidableEq κ]

/-- The amounts under the key `k`, added up. -/
def tally (key : α → κ) (amount : α → Nat) (k : κ) (xs : List α) : Nat :=
  ((xs.filter fun x => key x = k).map amount).sum

section Tally

variable {key : α → κ} {amount : α → Nat} {k : κ}

@[simp] theorem tally_nil : tally key amount k [] = 0 := rfl

theorem tally_cons (x : α) (xs : List α) :
    tally key amount k (x :: xs) = (if key x = k then amount x else 0) + tally key amount k xs := by
  unfold tally
  by_cases h : key x = k
  · simp [h]
  · simp [h]

theorem tally_append (xs ys : List α) :
    tally key amount k (xs ++ ys) = tally key amount k xs + tally key amount k ys := by
  simp [tally]

theorem tally_map {β : Type u} (f : β → α) (xs : List β) :
    tally key amount k (xs.map f) = tally (key ∘ f) (amount ∘ f) k xs := by
  simp [tally, List.filter_map, Function.comp_def]

/-- One more entry adds its amount to its own key. -/
theorem tally_concat (xs : List α) (x : α) :
    tally key amount k (xs ++ [x]) = tally key amount k xs + if key x = k then amount x else 0 := by
  rw [tally_append, tally_cons, tally_nil, Nat.add_zero]

theorem tally_of_not_mem {xs : List α} (h : k ∉ xs.map key) : tally key amount k xs = 0 := by
  induction xs with
  | nil => rfl
  | cons x xs ih =>
      rw [List.map_cons, List.mem_cons, not_or] at h
      rw [tally_cons, if_neg (Ne.symm h.1), ih h.2]

/-- Among entries of different keys each one is the sum of its key. -/
theorem tally_of_mem {xs : List α} (hnodup : (xs.map key).Nodup) {x : α} (h : x ∈ xs) :
    tally key amount (key x) xs = amount x := by
  induction xs with
  | nil => cases h
  | cons y ys ih =>
      rw [List.map_cons, List.nodup_cons] at hnodup
      rw [tally_cons]
      cases List.mem_cons.mp h with
      | inl heq => rw [heq, if_pos rfl, tally_of_not_mem hnodup.1, Nat.add_zero]
      | inr hmem =>
          have hne : key y ≠ key x := fun heq => hnodup.1 (heq ▸ List.mem_map_of_mem hmem)
          rw [if_neg hne, Nat.zero_add, ih hnodup.2 hmem]

/-- A sum over fewer entries is no larger. -/
theorem tally_le_tally {μ : Type v} [DecidableEq μ] {key' : α → μ} {k' : μ} {xs : List α}
    (h : ∀ x ∈ xs, key x = k → key' x = k') :
    tally key amount k xs ≤ tally key' amount k' xs := by
  induction xs with
  | nil => exact Nat.le_refl _
  | cons x xs ih =>
      have hrest := ih fun y hy => h y (List.mem_cons_of_mem x hy)
      rw [tally_cons, tally_cons]
      by_cases hx : key x = k
      · rw [if_pos hx, if_pos (h x List.mem_cons_self hx)]
        omega
      · rw [if_neg hx]
        omega

/-- Sums over the same entries are the same. -/
theorem tally_congr {μ : Type v} [DecidableEq μ] {key' : α → μ} {k' : μ} {xs : List α}
    (h : ∀ x ∈ xs, key x = k ↔ key' x = k') :
    tally key amount k xs = tally key' amount k' xs :=
  Nat.le_antisymm (tally_le_tally fun x hx => (h x hx).mp) (tally_le_tally fun x hx => (h x hx).mpr)

end Tally
