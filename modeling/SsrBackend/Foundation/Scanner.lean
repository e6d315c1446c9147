import Mathlib.Algebra.Order.Ring.Nat
import Mathlib.Data.List.Basic

/-!
Scanners that take a front part of their input, or fail and take nothing. What a
scanner has taken is a word over an alphabet; the rules for the combinators show it
for a whole grammar from its letters.
-/

/-- A scanner of values from a list of symbols. -/
structure Scanner (τ α : Type) where
  run : List τ → Option (α × List τ)

namespace Scanner

variable {τ α β : Type}

instance : Monad (Scanner τ) where
  pure a := ⟨fun text => some (a, text)⟩
  bind r f := ⟨fun text => (r.run text).bind fun taken => (f taken.1).run taken.2⟩

def fail : Scanner τ α := ⟨fun _ => none⟩

/-- The first scanner that does not fail. -/
def orElse (r r' : Scanner τ α) : Scanner τ α := ⟨fun text => (r.run text).or (r'.run text)⟩

/-- Go on with the same input when the scanner fails. -/
def attempt (r : Scanner τ α) : Scanner τ (Option α) :=
  ⟨fun text => match r.run text with
    | some (a, rest) => some (some a, rest)
    | none => some (none, text)⟩

/-- Everything that is read is a word over `p`. -/
def Consumes (p : τ → Prop) (r : Scanner τ α) : Prop :=
  ∀ text a rest, r.run text = some (a, rest) → ∃ word, text = word ++ rest ∧ ∀ c ∈ word, p c

namespace Consumes

variable {p : τ → Prop}

theorem pure (a : α) : Consumes p (Pure.pure a : Scanner τ α) := by
  rintro text a rest h
  cases h
  exact ⟨[], rfl, nofun⟩

theorem fail : Consumes p (Scanner.fail : Scanner τ α) := nofun

theorem bind {r : Scanner τ α} {f : α → Scanner τ β} (hr : Consumes p r)
    (hf : ∀ a, Consumes p (f a)) : Consumes p (r >>= f) := by
  intro text b rest h
  obtain ⟨⟨a, middle⟩, hfirst, hnext⟩ := Option.bind_eq_some_iff.mp h
  obtain ⟨word, rfl, hword⟩ := hr text a middle hfirst
  obtain ⟨word', rfl, hword'⟩ := hf a middle b rest hnext
  refine ⟨word ++ word', (List.append_assoc ..).symm, ?_⟩
  intro c hc
  rcases List.mem_append.mp hc with hc | hc
  · exact hword c hc
  · exact hword' c hc

theorem map {r : Scanner τ α} (f : α → β) (hr : Consumes p r) : Consumes p (f <$> r) :=
  bind hr fun a => pure (f a)

theorem orElse {r r' : Scanner τ α} (hr : Consumes p r) (hr' : Consumes p r') :
    Consumes p (r.orElse r') := by
  intro text a rest h
  rcases Option.or_eq_some_iff.mp h with hfirst | ⟨-, hsecond⟩
  · exact hr text a rest hfirst
  · exact hr' text a rest hsecond

theorem attempt {r : Scanner τ α} (hr : Consumes p r) : Consumes p r.attempt := by
  intro text a rest h
  simp only [Scanner.attempt] at h
  cases hrun : r.run text with
  | none =>
      rw [hrun] at h
      cases h
      exact ⟨[], rfl, nofun⟩
  | some taken =>
      rw [hrun] at h
      cases h
      exact hr text _ _ hrun

end Consumes

end Scanner
