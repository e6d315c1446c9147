import Mathlib.Algebra.Order.Ring.Nat
import Mathlib.Data.List.Basic

/-!
Noninterference by unwinding. Some of the calls on a shared state are visible. When
a relation between states survives hidden calls, and makes visible calls return
the same and keeps itself, the results of the visible calls of a run depend on
those calls alone: on no hidden call and on no interleaving.
-/

namespace Unwinding

variable {State Op Result : Type}

/-- The results of the visible calls of a run. -/
def observe (call : Op → State → Result × State) (visible : Op → Bool) :
    State → List Op → List Result
  | _, [] => []
  | s, op :: ops =>
      if visible op then (call op s).1 :: observe call visible (call op s).2 ops
      else observe call visible (call op s).2 ops

/-- States that the visible calls cannot tell apart. -/
structure Unwinds (call : Op → State → Result × State) (visible : Op → Bool)
    (R : State → State → Prop) : Prop where
  symm : ∀ {s t}, R s t → R t s
  seen : ∀ {s t op}, R s t → visible op = true →
    (call op s).1 = (call op t).1 ∧ R (call op s).2 (call op t).2
  hidden : ∀ {s t op}, R s t → visible op = false → R (call op s).2 t

variable {call : Op → State → Result × State} {visible : Op → Bool} {R : State → State → Prop}

theorem observe_seen {s : State} {op : Op} (h : visible op = true) (ops : List Op) :
    observe call visible s (op :: ops) =
      (call op s).1 :: observe call visible (call op s).2 ops := by
  rw [observe, if_pos h]

theorem observe_hidden {s : State} {op : Op} (h : visible op = false) (ops : List Op) :
    observe call visible s (op :: ops) = observe call visible (call op s).2 ops := by
  rw [observe, if_neg (by simp [h])]

/-- Hidden calls can be left out. -/
theorem observe_filter (h : Unwinds call visible R) {s t : State} (hR : R s t) (ops : List Op) :
    observe call visible s ops = observe call visible t (ops.filter visible) := by
  induction ops generalizing s t with
  | nil => rfl
  | cons op ops ih =>
      cases hv : visible op with
      | true =>
          obtain ⟨hresult, hnext⟩ := h.seen hR hv
          rw [observe_seen hv, List.filter_cons_of_pos hv, observe_seen hv, hresult, ih hnext]
      | false =>
          rw [observe_hidden hv, List.filter_cons_of_neg (by simp [hv])]
          exact ih (h.hidden hR hv)

/-- Runs with the same visible calls have the same visible results. -/
theorem observe_eq (h : Unwinds call visible R) {s t : State} (hR : R s t) {ops ops' : List Op}
    (hops : ops.filter visible = ops'.filter visible) :
    observe call visible s ops = observe call visible t ops' := by
  calc observe call visible s ops
      = observe call visible t (ops.filter visible) := observe_filter h hR ops
    _ = observe call visible t (ops'.filter visible) := by rw [hops]
    _ = observe call visible s (ops'.filter visible) := by
        have hself := observe_filter h (h.symm hR) (ops'.filter visible)
        rw [List.filter_filter] at hself
        simpa using hself
    _ = observe call visible t ops' := (observe_filter h (h.symm hR) ops').symm

end Unwinding
