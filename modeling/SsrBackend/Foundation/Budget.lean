import Mathlib.Algebra.Order.Monoid.Defs
import SsrBackend.Foundation.Machine

/-!
Amortised bounds on runs. Each step spends something and earns something, and a
level of the state covers the difference; then what a run spends is covered by
the level at its start and by what it earns, whatever the steps are.
-/

namespace Machine

variable {State Event M : Type} [AddCommMonoid M] (step : State → Event → State)

/-- The sum of a quantity over the steps of a run. -/
def total (f : State → Event → M) : State → List Event → M
  | _, [] => 0
  | s, event :: events => f s event + total f (step s event) events

variable [PartialOrder M] [IsOrderedAddMonoid M] {step}

/-- The rule: an invariant of the run, and at each step the level pays what is not earned. -/
theorem total_add_level_le {Inv : State → Prop} {Ok : State → Event → Prop}
    {level : State → M} {spends earns : State → Event → M}
    (hkeeps : ∀ s event, Inv s → Ok s event → Inv (step s event))
    (hpays : ∀ s event, Inv s → Ok s event →
      spends s event + level (step s event) ≤ level s + earns s event)
    {s : State} (h : Inv s) {events : List Event}
    (hok : ∀ before event after, events = before ++ event :: after →
      Ok (run step s before) event) :
    total step spends s events + level (run step s events) ≤
      level s + total step earns s events := by
  induction events generalizing s with
  | nil => simp [total]
  | cons event events ih =>
      have hfirst := hok [] event events rfl
      have hrest := ih (hkeeps s event h hfirst) (by
        intro before next after heq
        exact hok (event :: before) next after (by rw [heq, List.cons_append]))
      calc total step spends s (event :: events) + level (run step s (event :: events))
          = spends s event + (total step spends (step s event) events +
              level (run step (step s event) events)) := by rw [total, run_cons, add_assoc]
        _ ≤ spends s event + (level (step s event) + total step earns (step s event) events) :=
            add_le_add_right hrest _
        _ = spends s event + level (step s event) + total step earns (step s event) events := by
            rw [add_assoc]
        _ ≤ level s + earns s event + total step earns (step s event) events :=
            add_le_add_left (hpays s event h hfirst) _
        _ = level s + total step earns s (event :: events) := by rw [total, add_assoc]

end Machine
