import Std.Data.HashMap.Lemmas
import Mathlib.Algebra.Order.Ring.Nat
import Mathlib.Data.List.Basic

/-!
Objects that several holders share by reference. A handle is the place of its
object and is given out once, so equal handles mean the same object. A registry
keeps one object for each key; an object stays when its key goes.
-/

universe u

structure Arena (α : Type u) where
  cells : List α

namespace Arena

variable {α : Type u}

def size (a : Arena α) : Nat := a.cells.length

def get? (a : Arena α) (h : Nat) : Option α := a.cells[h]?

def modify (a : Arena α) (h : Nat) (f : α → α) : Arena α := ⟨a.cells.modify h f⟩

/-- A new object; its handle is `a.size`. -/
def push (a : Arena α) (x : α) : Arena α := ⟨a.cells ++ [x]⟩

@[simp] theorem size_modify (a : Arena α) (h : Nat) (f : α → α) : (a.modify h f).size = a.size :=
  List.length_modify f a.cells h

@[simp] theorem size_push (a : Arena α) (x : α) : (a.push x).size = a.size + 1 := by
  rw [size, push, List.length_append]
  rfl

theorem get?_push (a : Arena α) (x : α) (h : Nat) :
    (a.push x).get? h = if h = a.size then some x else a.get? h := by
  unfold get? push size
  by_cases heq : h = a.cells.length
  · subst heq
    simp
  · rw [if_neg heq]
    rcases Nat.lt_or_ge h a.cells.length with hlt | hge
    · exact List.getElem?_append_left hlt
    · rw [List.getElem?_eq_none hge, List.getElem?_eq_none_iff, List.length_append]
      change a.cells.length + 1 ≤ h
      omega

theorem get?_modify (a : Arena α) (h h' : Nat) (f : α → α) :
    (a.modify h f).get? h' = if h = h' then (a.get? h').map f else a.get? h' := by
  unfold get? modify
  rw [List.getElem?_modify]
  by_cases heq : h = h'
  · simp [heq]
  · simp [heq]

end Arena

/-- One shared object for each key. -/
structure Registry (κ : Type) [BEq κ] [Hashable κ] (α : Type u) where
  objects : Arena α
  entries : Std.HashMap κ Nat

namespace Registry

variable {κ : Type} [BEq κ] [Hashable κ] {α : Type u}

def empty : Registry κ α := ⟨⟨[]⟩, ∅⟩

/-- The object of a key: an existing one is updated, a missing one is made. -/
def ensure (r : Registry κ α) (key : κ) (fresh : α) (update : α → α) : Nat × Registry κ α :=
  match r.entries[key]? with
  | some h => (h, { r with objects := r.objects.modify h update })
  | none => (r.objects.size, ⟨r.objects.push fresh, r.entries.insert key r.objects.size⟩)

def retain (r : Registry κ α) (keep : κ → Bool) : Registry κ α :=
  { r with entries := r.entries.filter fun key _ => keep key }

section Ensure

variable (r : Registry κ α) (key : κ) (fresh : α) (update : α → α)

theorem ensure_some {h : Nat} (hkey : r.entries[key]? = some h) :
    r.ensure key fresh update = (h, { r with objects := r.objects.modify h update }) := by
  rw [ensure, hkey]

theorem ensure_none (hkey : r.entries[key]? = none) :
    r.ensure key fresh update =
      (r.objects.size, ⟨r.objects.push fresh, r.entries.insert key r.objects.size⟩) := by
  rw [ensure, hkey]

variable [LawfulBEq κ]

/-- `ensure` returns the handle that the key has from then on. -/
theorem ensure_self :
    (r.ensure key fresh update).2.entries[key]? = some (r.ensure key fresh update).1 := by
  cases hkey : r.entries[key]? with
  | some h => rw [ensure_some r key fresh update hkey, hkey]
  | none =>
      rw [ensure_none r key fresh update hkey]
      exact Std.HashMap.getElem?_insert_self

/-- A key that has an object keeps it. -/
theorem ensure_keeps {key' : κ} {h : Nat} (hkey : r.entries[key']? = some h) :
    (r.ensure key fresh update).2.entries[key']? = some h := by
  cases hself : r.entries[key]? with
  | some h' =>
      rw [ensure_some r key fresh update hself]
      exact hkey
  | none =>
      rw [ensure_none r key fresh update hself, Std.HashMap.getElem?_insert]
      by_cases heq : key = key'
      · rw [heq, hkey] at hself
        cases hself
      · rw [if_neg (by simpa using heq)]
        exact hkey

/-- Only the key itself can be new. -/
theorem ensure_entries {key' : κ} {h : Nat}
    (hkey : (r.ensure key fresh update).2.entries[key']? = some h) :
    key' = key ∨ r.entries[key']? = some h := by
  cases hself : r.entries[key]? with
  | some h' =>
      rw [ensure_some r key fresh update hself] at hkey
      exact Or.inr hkey
  | none =>
      rw [ensure_none r key fresh update hself, Std.HashMap.getElem?_insert] at hkey
      by_cases heq : key = key'
      · exact Or.inl heq.symm
      · rw [if_neg (by simpa using heq)] at hkey
        exact Or.inr hkey

theorem mem_ensure [LawfulHashable κ] {key' : κ}
    (h : key' ∈ (r.ensure key fresh update).2.entries) : key' = key ∨ key' ∈ r.entries := by
  refine (r.ensure_entries key fresh update (Std.HashMap.getElem?_eq_some_getElem h)).imp_right ?_
  intro hold
  rw [← Std.HashMap.isSome_getElem?_iff_mem, hold]
  rfl

end Ensure

variable [LawfulBEq κ]

theorem retain_entries (r : Registry κ α) (keep : κ → Bool) (key : κ) :
    (r.retain keep).entries[key]? = if keep key then r.entries[key]? else none := by
  rw [retain, Std.HashMap.getElem?_filter']
  cases r.entries[key]? with
  | none => simp
  | some h => simp [Option.filter]

/-! ### The owners of the objects -/

/-- The object of an entry exists, and its owner is the key. -/
def Owned (r : Registry κ α) (owner : Nat → κ) : Prop :=
  ∀ (key : κ) (h : Nat), r.entries[key]? = some h → h < r.objects.size ∧ owner h = key

/-- A later registry: every object keeps its owner and its value, and a new one is `fresh`. -/
structure Grown (fresh : α) (r : Registry κ α) (owner : Nat → κ) (r' : Registry κ α)
    (owner' : Nat → κ) : Prop where
  owned : r'.Owned owner'
  size_le : r.objects.size ≤ r'.objects.size
  owner_eq : ∀ h, h < r.objects.size → owner' h = owner h
  value_eq : ∀ h, (r'.objects.get? h).getD fresh = (r.objects.get? h).getD fresh

section Owners

variable {fresh : α} {r r' r'' : Registry κ α} {owner owner' owner'' : Nat → κ}

omit [LawfulBEq κ] in
theorem Grown.refl (h : r.Owned owner) : Grown fresh r owner r owner :=
  ⟨h, Nat.le_refl _, fun _ _ => rfl, fun _ => rfl⟩

omit [LawfulBEq κ] in
theorem Grown.trans (h : Grown fresh r owner r' owner') (h' : Grown fresh r' owner' r'' owner'') :
    Grown fresh r owner r'' owner'' where
  owned := h'.owned
  size_le := Nat.le_trans h.size_le h'.size_le
  owner_eq i hi := (h'.owner_eq i (Nat.lt_of_lt_of_le hi h.size_le)).trans (h.owner_eq i hi)
  value_eq i := (h'.value_eq i).trans (h.value_eq i)

theorem ensure_grown (h : r.Owned owner) (key : κ) :
    ∃ owner', Grown fresh r owner (r.ensure key fresh id).2 owner' := by
  cases hself : r.entries[key]? with
  | some handle =>
      rw [ensure_some r key fresh id hself]
      refine ⟨owner, ?_, ?_, fun _ _ => rfl, ?_⟩
      · intro key' handle' hkey
        rw [Arena.size_modify]
        exact h key' handle' hkey
      · exact Nat.le_of_eq (Arena.size_modify _ _ _).symm
      · intro i
        rw [Arena.get?_modify, Option.map_id, id, ite_self]
  | none =>
      rw [ensure_none r key fresh id hself]
      refine ⟨fun i => if i = r.objects.size then key else owner i, ?_, ?_, ?_, ?_⟩
      · intro key' handle' hkey
        rw [Arena.size_push]
        rw [Std.HashMap.getElem?_insert] at hkey
        split at hkey
        · rename_i heq
          cases hkey
          exact ⟨Nat.lt_succ_self _, (if_pos rfl).trans (eq_of_beq heq)⟩
        · obtain ⟨hlt, howner⟩ := h key' handle' hkey
          exact ⟨Nat.lt_succ_of_lt hlt, (if_neg (Nat.ne_of_lt hlt)).trans howner⟩
      · exact Nat.le_trans (Nat.le_succ _) (Nat.le_of_eq (Arena.size_push _ _).symm)
      · intro i hi
        exact if_neg (Nat.ne_of_lt hi)
      · intro i
        rw [Arena.get?_push]
        split
        · rename_i heq
          have hnone : r.objects.get? i = none := by
            rw [heq]
            exact List.getElem?_eq_none (Nat.le_refl _)
          rw [hnone, Option.getD_some, Option.getD_none]
        · rfl

theorem retain_grown (h : r.Owned owner) (keep : κ → Bool) :
    Grown fresh r owner (r.retain keep) owner := by
  refine ⟨?_, Nat.le_refl _, fun _ _ => rfl, fun _ => rfl⟩
  intro key handle hkey
  rw [retain_entries] at hkey
  split at hkey
  · exact h key handle hkey
  · cases hkey

end Owners

section SameHandles

/-- The keys have the same handles, and the same one is given out next. -/
structure SameHandles (r r' : Registry κ α) : Prop where
  entries_eq : r'.entries = r.entries
  size_eq : r'.objects.size = r.objects.size

variable {r r' : Registry κ α}

omit [LawfulBEq κ] in
theorem SameHandles.trans {r'' : Registry κ α} (h : SameHandles r r') (h' : SameHandles r' r'') :
    SameHandles r r'' :=
  ⟨h'.entries_eq.trans h.entries_eq, h'.size_eq.trans h.size_eq⟩

omit [LawfulBEq κ] in
theorem SameHandles.ensure (h : SameHandles r r') (key : κ) (fresh : α) (update : α → α) :
    (r'.ensure key fresh update).1 = (r.ensure key fresh update).1 ∧
      SameHandles (r.ensure key fresh update).2 (r'.ensure key fresh update).2 := by
  cases hkey : r.entries[key]? with
  | some handle =>
      have hkey' : r'.entries[key]? = some handle := by rw [h.entries_eq, hkey]
      rw [ensure_some r key fresh update hkey, ensure_some r' key fresh update hkey']
      refine ⟨rfl, h.entries_eq, ?_⟩
      rw [Arena.size_modify, Arena.size_modify, h.size_eq]
  | none =>
      have hkey' : r'.entries[key]? = none := by rw [h.entries_eq, hkey]
      rw [ensure_none r key fresh update hkey, ensure_none r' key fresh update hkey']
      refine ⟨h.size_eq, ?_, ?_⟩
      · rw [h.entries_eq, h.size_eq]
      · rw [Arena.size_push, Arena.size_push, h.size_eq]

omit [LawfulBEq κ] in
theorem SameHandles.retain (h : SameHandles r r') (keep : κ → Bool) :
    SameHandles (r.retain keep) (r'.retain keep) := by
  refine ⟨?_, h.size_eq⟩
  rw [Registry.retain, Registry.retain, h.entries_eq]

end SameHandles

end Registry
