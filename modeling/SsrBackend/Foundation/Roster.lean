import Mathlib.Data.List.Nodup
import SsrBackend.Foundation.Machine

/-!
Workers that are started and finished one after another, as a log notes it. A
worker starts under the next number and in a place where no one works; only a
worker at work can finish. A log that can be read so has, at every moment, at most
one worker in a place.
-/

universe u v

/-- Who is at work, and the next number. -/
structure Roster (Worker : Type u) where
  working : List Worker
  next : Nat

namespace Roster

inductive Note (Worker : Type u) where
  | start (worker : Worker)
  | finish (worker : Worker)

variable {Worker : Type u} {Place : Type v} [DecidableEq Worker] [DecidableEq Place]
  (place : Worker → Place) (number : Worker → Nat)

def note (r : Roster Worker) : Note Worker → Option (Roster Worker)
  | .start worker =>
      if number worker = r.next ∧ place worker ∉ r.working.map place then
        some ⟨r.working ++ [worker], r.next + 1⟩
      else none
  | .finish worker =>
      if worker ∈ r.working then some ⟨r.working.erase worker, r.next⟩ else none

/-- The roster that a log leads to. -/
def read (log : List (Note Worker)) : Option (Roster Worker) :=
  Machine.tryRun (note place number) ⟨[], 0⟩ log

/-- One worker in a place, and the numbers are used up. -/
structure Orderly (r : Roster Worker) : Prop where
  places : (r.working.map place).Nodup
  numbers : ∀ worker ∈ r.working, number worker < r.next

variable {place number}

theorem note_orderly {r r' : Roster Worker} {entry : Note Worker} (hr : Orderly place number r)
    (h : note place number r entry = some r') : Orderly place number r' := by
  cases entry with
  | start worker =>
      rw [note] at h
      split at h
      · rename_i hfree
        cases h
        refine ⟨?_, ?_⟩
        · rw [List.map_append, List.map_singleton, List.nodup_append]
          refine ⟨hr.places, List.nodup_singleton _, ?_⟩
          intro a ha b hb heq
          rw [List.mem_singleton.mp hb] at heq
          exact hfree.2 (heq ▸ ha)
        · intro other hmem
          cases List.mem_append.mp hmem with
          | inl hold => exact Nat.lt_succ_of_lt (hr.numbers other hold)
          | inr hnew =>
              rw [List.mem_singleton.mp hnew, hfree.1]
              exact Nat.lt_succ_self _
      · cases h
  | finish worker =>
      rw [note] at h
      split at h
      · cases h
        refine ⟨hr.places.sublist (List.erase_sublist.map place), ?_⟩
        intro other hmem
        exact hr.numbers other (List.mem_of_mem_erase hmem)
      · cases h

theorem read_orderly {log : List (Note Worker)} {r : Roster Worker}
    (h : read place number log = some r) : Orderly place number r := by
  have hempty : Orderly place number (⟨[], 0⟩ : Roster Worker) :=
    ⟨List.nodup_nil, fun _ hmem => absurd hmem List.not_mem_nil⟩
  have hany : ∀ entry ∈ log, (fun _ : Note Worker => True) entry := fun _ _ => trivial
  refine Machine.tryRun_keeps ?_ h hany hempty
  intro r entry r' hnote _ hr
  exact note_orderly hr hnote

theorem read_append {xs ys : List (Note Worker)} :
    read place number (xs ++ ys) =
      (read place number xs).bind fun r => Machine.tryRun (note place number) r ys :=
  Machine.tryRun_append ..

/-- A log that can be read can be read up to every moment. -/
theorem read_moment {log before : List (Note Worker)} {r : Roster Worker}
    (h : read place number log = some r) (hbefore : before <+: log) :
    ∃ r', read place number before = some r' ∧ Orderly place number r' := by
  obtain ⟨rest, rfl⟩ := hbefore
  rw [read_append] at h
  obtain ⟨r', hr', -⟩ := Option.bind_eq_some_iff.mp h
  exact ⟨r', hr', read_orderly hr'⟩

/-- Numbers are used up by starts only, and a start takes in one worker. -/
structure Later (r r' : Roster Worker) : Prop where
  next_le : r.next ≤ r'.next
  working_le : r'.working.length + r.next ≤ r.working.length + r'.next

theorem note_later {s r r' : Roster Worker} {entry : Note Worker} (hr : Later s r)
    (h : note place number r entry = some r') : Later s r' := by
  obtain ⟨hnext, hworking⟩ := hr
  cases entry with
  | start worker =>
      rw [note] at h
      split at h
      · cases h
        refine ⟨Nat.le_succ_of_le hnext, ?_⟩
        rw [List.length_append, List.length_singleton]
        dsimp only
        omega
      · cases h
  | finish worker =>
      rw [note] at h
      split at h
      · cases h
        have hshorter := List.length_erase_le (a := worker) (l := r.working)
        refine ⟨hnext, ?_⟩
        dsimp only
        omega
      · cases h

theorem tryRun_later {log : List (Note Worker)} {r r' : Roster Worker}
    (h : Machine.tryRun (note place number) r log = some r') : Later r r' := by
  have hany : ∀ entry ∈ log, (fun _ : Note Worker => True) entry := fun _ _ => trivial
  have hstart : Later r r := ⟨Nat.le_refl _, Nat.le_refl _⟩
  refine Machine.tryRun_keeps ?_ h hany hstart
  intro t entry t' hnote _ ht
  exact note_later ht hnote

/-- A moment of a log is one before its part `before`, or at most as many are at work
there as were then and have started since. -/
theorem read_since {before log moment : List (Note Worker)} {r r' : Roster Worker}
    (hr : read place number before = some r) (hr' : read place number log = some r')
    (hbefore : before <+: log) (hmoment : moment <+: log) :
    moment <+: before ∨ ∃ r'', read place number moment = some r'' ∧
      r''.working.length + r.next ≤ r.working.length + r'.next := by
  rcases List.prefix_or_prefix_of_prefix hmoment hbefore with hearly | ⟨since, rfl⟩
  · exact Or.inl hearly
  · right
    obtain ⟨rest, rfl⟩ := hmoment
    rw [read_append] at hr'
    obtain ⟨r'', hr'', hrest⟩ := Option.bind_eq_some_iff.mp hr'
    have hlater := hr''
    rw [read_append, hr, Option.bind_some] at hlater
    have hworking := (tryRun_later hlater).working_le
    have hnext := (tryRun_later hrest).next_le
    exact ⟨r'', hr'', by omega⟩

/-- A worker starts in a free place. -/
theorem read_start {log : List (Note Worker)} {r : Roster Worker}
    (h : read place number log = some r) {worker : Worker} (hnumber : number worker = r.next)
    (hfree : place worker ∉ r.working.map place) :
    read place number (log ++ [.start worker]) = some ⟨r.working ++ [worker], r.next + 1⟩ := by
  rw [read_append, h, Option.bind_some, Machine.tryRun, note, if_pos ⟨hnumber, hfree⟩]
  rfl

/-- Workers that are at work finish, and the others stay. -/
theorem read_finish {log : List (Note Worker)} {r : Roster Worker}
    (h : read place number log = some r) {workers : List Worker} (hnodup : workers.Nodup)
    (hmem : ∀ worker ∈ workers, worker ∈ r.working) :
    read place number (log ++ workers.map .finish) =
      some ⟨r.working.filter fun worker => worker ∉ workers, r.next⟩ := by
  induction workers generalizing log r with
  | nil => simpa using h
  | cons worker workers ih =>
      have hdistinct : r.working.Nodup := (read_orderly h).places.of_map
      rw [List.nodup_cons] at hnodup
      have hfirst : read place number (log ++ [.finish worker]) =
          some ⟨r.working.erase worker, r.next⟩ := by
        rw [read_append, h, Option.bind_some, Machine.tryRun, note,
          if_pos (hmem worker (List.mem_cons_self ..))]
        rfl
      have hrest : ∀ other ∈ workers, other ∈ r.working.erase worker := by
        intro other hother
        have hne : other ≠ worker := fun heq => hnodup.1 (heq ▸ hother)
        exact (List.mem_erase_of_ne hne).mpr (hmem other (List.mem_cons_of_mem _ hother))
      have hread := ih hfirst hnodup.2 hrest
      rw [List.append_assoc, List.singleton_append] at hread
      rw [List.map_cons, hread, hdistinct.erase_eq_filter, List.filter_filter]
      congr 2
      apply List.filter_congr
      intro other _
      rw [Bool.eq_iff_iff]
      simp [and_comm]

end Roster
