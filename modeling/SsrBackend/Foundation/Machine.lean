import Mathlib.Algebra.Order.Ring.Nat
import Mathlib.Data.List.Basic

/-!
Runs of a machine that takes one event at a time. An invariant may speak about
the events so far, so that a state is related to what has led to it.
-/

namespace Machine

universe u v

variable {State : Type u} {Event : Type v} (step : State → Event → State)

/-- The state after a list of events. -/
def run (s : State) (events : List Event) : State := events.foldl step s

@[simp] theorem run_nil (s : State) : run step s [] = s := rfl

@[simp] theorem run_cons (s : State) (event : Event) (events : List Event) :
    run step s (event :: events) = run step (step s event) events := rfl

theorem run_append (s : State) (xs ys : List Event) :
    run step s (xs ++ ys) = run step (run step s xs) ys := List.foldl_append

variable {step}

/-- What holds before any event and is kept by every step holds after every run. -/
theorem run_keeps {Inv : State → Prop} (hstep : ∀ s event, Inv s → Inv (step s event))
    {s : State} (h : Inv s) (events : List Event) : Inv (run step s events) := by
  induction events generalizing s with
  | nil => exact h
  | cons event events ih => exact ih (hstep s event h)

/-- An invariant that a step keeps under a condition on the state before it and on the event. -/
theorem run_keeps_where {Inv : State → Prop} {Ok : State → Event → Prop}
    (hstep : ∀ s event, Inv s → Ok s event → Inv (step s event)) {s : State} (h : Inv s)
    (events : List Event)
    (hok : ∀ before event after, events = before ++ event :: after →
      Ok (run step s before) event) : Inv (run step s events) := by
  induction events generalizing s with
  | nil => exact h
  | cons event events ih =>
      apply ih
      · exact hstep s event h (hok [] event events rfl)
      · intro before next after heq
        exact hok (event :: before) next after (by rw [heq, List.cons_append])

theorem run_stays {s : State} (hstay : ∀ event, step s event = s) (events : List Event) :
    run step s events = s := by
  induction events with
  | nil => rfl
  | cons event events ih => rw [run_cons, hstay, ih]

/-- A run that ends where no step leads away has come there by one of its steps. -/
theorem run_enters {Q : State → Prop} (hstay : ∀ s event, Q s → step s event = s) {s : State}
    (hs : ¬ Q s) {events : List Event} (h : Q (run step s events)) :
    ∃ before event after, events = before ++ event :: after ∧ ¬ Q (run step s before) ∧
      run step s events = step (run step s before) event := by
  induction events generalizing s with
  | nil => exact absurd h hs
  | cons event events ih =>
      by_cases hnext : Q (step s event)
      · exact ⟨[], event, events, rfl, hs, run_stays (fun e => hstay _ e hnext) events⟩
      · obtain ⟨before, last, after, rfl, hbefore, hlast⟩ := ih hnext h
        exact ⟨event :: before, last, after, rfl, hbefore, hlast⟩

variable (step) in
/-- Some run on events that are allowed leads from one state to the other. -/
def Reaches (Ok : Event → Prop) (s t : State) : Prop :=
  ∃ events, (∀ event ∈ events, Ok event) ∧ t = run step s events

namespace Reaches

variable {Ok Ok' : Event → Prop} {s t : State}

theorem refl (s : State) : Reaches step Ok s s := ⟨[], List.forall_mem_nil _, rfl⟩

theorem mono (h : Reaches step Ok s t) (himp : ∀ event, Ok event → Ok' event) :
    Reaches step Ok' s t := by
  obtain ⟨events, hevents, heq⟩ := h
  exact ⟨events, fun event hmem => himp event (hevents event hmem), heq⟩

theorem next (h : Reaches step Ok s t) {event : Event} (hevent : Ok event) :
    Reaches step Ok s (step t event) := by
  obtain ⟨events, hevents, rfl⟩ := h
  refine ⟨events ++ [event], ?_, ?_⟩
  · intro other hmem
    cases List.mem_append.mp hmem with
    | inl hold => exact hevents other hold
    | inr hnew =>
        rw [List.mem_singleton.mp hnew]
        exact hevent
  · rw [run_append]
    rfl

theorem keeps {Q : State → Prop} (h : Reaches step Ok s t)
    (hstep : ∀ s event, Ok event → Q s → Q (step s event)) (hs : Q s) : Q t := by
  obtain ⟨events, hevents, rfl⟩ := h
  have hkept : ∀ s event, Q s → Ok event → Q (step s event) :=
    fun s event hs hevent => hstep s event hevent hs
  refine run_keeps_where hkept hs events ?_
  rintro before event after rfl
  exact hevents event (List.mem_append_right before List.mem_cons_self)

end Reaches

/-- An event of two runs in a row is one of the first or one of the second. -/
theorem split_append {xs ys before later : List Event} {event : Event}
    (h : xs ++ ys = before ++ event :: later) :
    (∃ rest, xs = before ++ event :: rest) ∨
      ∃ more, before = xs ++ more ∧ ys = more ++ event :: later := by
  rcases List.append_eq_append_iff.mp h with ⟨more, hbefore, hys⟩ | ⟨rest, hxs, hrest⟩
  · exact Or.inr ⟨more, hbefore, hys⟩
  · cases rest with
    | nil =>
        refine Or.inr ⟨[], ?_, ?_⟩
        · rw [hxs, List.append_nil, List.append_nil]
        · exact hrest.symm
    | cons other rest =>
        obtain ⟨rfl, -⟩ := List.cons.inj hrest
        exact Or.inl ⟨rest, hxs⟩

section Guarded

variable (step : State → Event → Option State)

/-- The state after a list of events, when each is enabled where it happens. -/
def tryRun (s : State) : List Event → Option State
  | [] => some s
  | event :: events => (step s event).bind fun next => tryRun next events

theorem tryRun_cons {s next : State} {event : Event} (h : step s event = some next)
    (events : List Event) : tryRun step s (event :: events) = tryRun step next events := by
  rw [tryRun, h, Option.bind_some]

theorem tryRun_append (s : State) (xs ys : List Event) :
    tryRun step s (xs ++ ys) = (tryRun step s xs).bind fun next => tryRun step next ys := by
  induction xs generalizing s with
  | nil => rfl
  | cons event xs ih =>
      rw [List.cons_append, tryRun, tryRun, Option.bind_assoc]
      congr 1
      funext next
      exact ih next

variable {step}

/-- `run_keeps` for steps that may be disabled, under a condition on the events. -/
theorem tryRun_keeps {Inv : State → Prop} {Ok : Event → Prop}
    (hstep : ∀ s event next, step s event = some next → Ok event → Inv s → Inv next)
    {s last : State} {events : List Event} (hrun : tryRun step s events = some last)
    (hok : ∀ event ∈ events, Ok event) (h : Inv s) : Inv last := by
  induction events generalizing s with
  | nil =>
      cases hrun
      exact h
  | cons event events ih =>
      obtain ⟨next, hnext, hrest⟩ := Option.bind_eq_some_iff.mp hrun
      apply ih hrest
      · intro later hlater
        exact hok later (List.mem_cons_of_mem event hlater)
      · exact hstep s event next hnext (hok event List.mem_cons_self) h

end Guarded

end Machine
