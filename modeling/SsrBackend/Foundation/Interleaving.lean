import Mathlib.Data.List.Induction
import SsrBackend.Foundation.Machine

/-!
Machines that run side by side. A member joins in some state and takes the events
that are addressed to it; whatever else happens in between, each member is the run
of one machine over its own events. The members that hold something can be counted.
-/

namespace Interleaving

universe u v

variable {Member : Type u} {Event : Type v} (step : Member → Event → Member)

/-- What happens to the members: one joins at the end, or one takes an event. -/
inductive Move (Member : Type u) (Event : Type v) where
  | join (member : Member)
  | tick (i : Nat) (event : Event)

def advance (members : List Member) : Move Member Event → List Member
  | .join member => members ++ [member]
  | .tick i event => members.modify i fun member => step member event

/-- The events of the member with a number. -/
def own (i : Nat) (moves : List (Move Member Event)) : List Event :=
  moves.filterMap fun
    | .tick j event => if j = i then some event else none
    | .join _ => none

theorem own_cons_tick (i j : Nat) (event : Event) (moves : List (Move Member Event)) :
    own i (.tick j event :: moves) = if j = i then event :: own i moves else own i moves := by
  by_cases h : j = i
  · simp [own, h]
  · simp [own, h]

variable {step}

/-- Every member has joined in some state, and has run over its own events since then. -/
theorem run_member {i : Nat} {member : Member} {moves : List (Move Member Event)}
    (h : (Machine.run (advance step) [] moves)[i]? = some member) :
    ∃ before first after, moves = before ++ .join first :: after ∧
      (Machine.run (advance step) [] before).length = i ∧
      member = Machine.run step first (own i after) := by
  induction moves using List.reverseRecOn generalizing member with
  | nil => cases h
  | append_singleton moves move ih =>
      rw [Machine.run_append, Machine.run_cons, Machine.run_nil] at h
      have hlater {old : Member} (hold : (Machine.run (advance step) [] moves)[i]? = some old)
          (hown : own i [move] = [] ∧ member = old ∨
            ∃ event, own i [move] = [event] ∧ member = step old event) :
          ∃ before first after, moves ++ [move] = before ++ .join first :: after ∧
            (Machine.run (advance step) [] before).length = i ∧
            member = Machine.run step first (own i after) := by
        obtain ⟨before, first, after, rfl, hlength, rfl⟩ := ih hold
        refine ⟨before, first, after ++ [move], ?_, hlength, ?_⟩
        · rw [List.append_assoc, List.cons_append]
        · rw [own, List.filterMap_append, Machine.run_append]
          rcases hown with ⟨hnone, rfl⟩ | ⟨event, hone, rfl⟩
          · exact congrArg (Machine.run step _) hnone.symm
          · exact congrArg (Machine.run step _) hone.symm
      cases move with
      | join other =>
          rw [advance] at h
          rcases Nat.lt_trichotomy i (Machine.run (advance step) [] moves).length with hlt | heq | hgt
          · rw [List.getElem?_append_left hlt] at h
            exact hlater h (Or.inl ⟨rfl, rfl⟩)
          · refine ⟨moves, other, [], rfl, heq.symm, ?_⟩
            rw [heq, List.getElem?_concat_length] at h
            exact (Option.some.inj h).symm
          · rw [List.getElem?_eq_none (by rw [List.length_append]; exact hgt)] at h
            cases h
      | tick j event =>
          rw [advance] at h
          by_cases hij : j = i
          · subst hij
            rw [List.getElem?_modify_eq] at h
            obtain ⟨old, hold, rfl⟩ := Option.map_eq_some_iff.mp h
            refine hlater hold (Or.inr ⟨event, ?_, rfl⟩)
            rw [own_cons_tick, if_pos rfl]
            rfl
          · rw [List.getElem?_modify_ne _ _ hij] at h
            refine hlater h (Or.inl ⟨?_, rfl⟩)
            rw [own_cons_tick, if_neg hij]
            rfl

/-- How a count of the members changes when one of them does. -/
theorem countP_modify {members : List Member} {i : Nat} {member : Member}
    (h : members[i]? = some member) (f : Member → Member) (p : Member → Bool) :
    (members.modify i f).countP p + (if p member then 1 else 0) =
      members.countP p + if p (f member) then 1 else 0 := by
  obtain ⟨hlt, hget⟩ := List.getElem?_eq_some_iff.mp h
  have hle := List.countP_pos_iff (p := p) (l := members)
  have hset : members.modify i f = members.set i (f member) := by
    rw [List.modify_eq_set_getElem?, h]
    rfl
  rw [hset, List.countP_set hlt, hget]
  cases hp : p member with
  | false => simp
  | true =>
      have hpos : 0 < members.countP p := hle.mpr ⟨member, List.mem_of_getElem? h, hp⟩
      simp only [if_true]
      omega

end Interleaving
