import SsrBackend.Foundation.Bytes

/-!
Calls that end with a value, with a reported error, or by a panic, and the
stateful calls whose state survives an error. Checked list accesses panic
exactly where an out-of-range index or range would, so that freedom from
panics is a theorem about a definition and not a convention.
-/

/-- How a call ends. `err` is a value the caller sees; `panic` ends the process. -/
inductive Outcome (ε α : Type) where
  | ok (value : α)
  | err (error : ε)
  | panic
  deriving DecidableEq, Repr

/-- A call on a state. What it wrote before it failed stays written. -/
structure Call (ε σ α : Type) where
  run : σ → Outcome ε α × σ

/-- Computations that can panic. -/
class MonadPanic (m : Type → Type) where
  panic : {α : Type} → m α

section Checked

variable {m : Type → Type} [Monad m] [MonadPanic m] {α : Type}

/-- `&buf[lo..hi]`. -/
def slice (buf : List α) (lo hi : Nat) : m (List α) :=
  if lo ≤ hi ∧ hi ≤ buf.length then pure (window buf lo hi) else MonadPanic.panic

/-- `buf[i]`. -/
def index (buf : List α) (i : Nat) : m α :=
  match buf[i]? with
  | some a => pure a
  | none => MonadPanic.panic

/-- `a - b` on unsigned integers. -/
def checkedSub (a b : Nat) : m Nat :=
  if b ≤ a then pure (a - b) else MonadPanic.panic

/-- `x << n`: a shift by the whole width or more is out of range. -/
def checkedShl {width : Nat} (x : BitVec width) (n : Nat) : m (BitVec width) :=
  if n < width then pure (x <<< n) else MonadPanic.panic

/-- `dst.copy_from_slice(src)` for a destination array of `n` elements. -/
def copyFromSlice (n : Nat) (src : List UInt8) : m (Vector UInt8 n) :=
  if src.length = n then pure (block n src) else MonadPanic.panic

/-- `x.expect(..)`. -/
def expect (x : Option α) : m α :=
  match x with
  | some a => pure a
  | none => MonadPanic.panic

theorem slice_of_le {buf : List α} {lo hi : Nat} (h : lo ≤ hi) (hb : hi ≤ buf.length) :
    (slice buf lo hi : m (List α)) = pure (window buf lo hi) := by
  simp [slice, h, hb]

theorem index_of_lt {buf : List α} {i : Nat} (h : i < buf.length) :
    (index buf i : m α) = pure buf[i] := by
  simp [index, List.getElem?_eq_getElem h]

theorem checkedSub_of_le {a b : Nat} (h : b ≤ a) :
    (checkedSub a b : m Nat) = pure (a - b) := by
  simp [checkedSub, h]

theorem checkedShl_of_lt {width n : Nat} (x : BitVec width) (h : n < width) :
    (checkedShl x n : m (BitVec width)) = pure (x <<< n) := by
  simp [checkedShl, h]

theorem copyFromSlice_of_length {n : Nat} {src : List UInt8} (h : src.length = n) :
    (copyFromSlice n src : m (Vector UInt8 n)) = pure (block n src) := by
  simp [copyFromSlice, h]

@[simp] theorem expect_some (a : α) : (expect (some a) : m α) = pure a := rfl

end Checked

namespace Outcome

variable {ε α β : Type}

def bind (x : Outcome ε α) (f : α → Outcome ε β) : Outcome ε β :=
  match x with
  | ok a => f a
  | err e => err e
  | panic => panic

instance : Monad (Outcome ε) where
  pure := ok
  bind := bind

instance : MonadPanic (Outcome ε) where
  panic := panic

instance : LawfulMonad (Outcome ε) := by
  refine LawfulMonad.mk' _ ?_ ?_ ?_
  · intro α x
    cases x <;> rfl
  · intro α β a f
    rfl
  · intro α β γ x f g
    cases x <;> rfl

@[simp] theorem pure_def (a : α) : (pure a : Outcome ε α) = ok a := rfl

@[simp] theorem ok_bind (a : α) (f : α → Outcome ε β) : (ok a >>= f) = f a := rfl

@[simp] theorem err_bind (e : ε) (f : α → Outcome ε β) : (err e >>= f) = err e := rfl

@[simp] theorem panic_bind (f : α → Outcome ε β) : (panic >>= f) = (panic : Outcome ε β) := rfl

theorem bind_eq_ok {x : Outcome ε α} {f : α → Outcome ε β} {b : β} (h : (x >>= f) = ok b) :
    ∃ a, x = ok a ∧ f a = ok b := by
  cases x with
  | ok a => exact ⟨a, rfl, h⟩
  | err e => cases h
  | panic => cases h

end Outcome

namespace Call

variable {ε σ α β : Type}

def bind (x : Call ε σ α) (f : α → Call ε σ β) : Call ε σ β where
  run s := match x.run s with
    | (.ok a, s') => (f a).run s'
    | (.err e, s') => (.err e, s')
    | (.panic, s') => (.panic, s')

instance : Monad (Call ε σ) where
  pure a := ⟨fun s => (.ok a, s)⟩
  bind := bind

instance : MonadPanic (Call ε σ) where
  panic := ⟨fun s => (.panic, s)⟩

instance : LawfulMonad (Call ε σ) := by
  refine LawfulMonad.mk' _ ?_ ?_ ?_
  · intro α x
    change bind x (fun a => pure (id a)) = x
    obtain ⟨run⟩ := x
    simp only [bind, mk.injEq]
    funext s
    rcases h : run s with ⟨_ | _ | _, s'⟩ <;> rfl
  · intro α β a f
    rfl
  · intro α β γ x f g
    change bind (bind x f) g = bind x (fun a => bind (f a) g)
    simp only [bind, mk.injEq]
    funext s
    rcases h : x.run s with ⟨_ | _ | _, s'⟩ <;> rfl

instance : MonadStateOf σ (Call ε σ) where
  get := ⟨fun s => (.ok s, s)⟩
  set s := ⟨fun _ => (.ok ⟨⟩, s)⟩
  modifyGet f := ⟨fun s => (.ok (f s).1, (f s).2)⟩

/-- `bail!(e)`. -/
def bail (e : ε) : Call ε σ α := ⟨fun s => (.err e, s)⟩

theorem run_bind (x : Call ε σ α) (f : α → Call ε σ β) (s : σ) :
    (x >>= f).run s = match x.run s with
      | (.ok a, s') => (f a).run s'
      | (.err e, s') => (.err e, s')
      | (.panic, s') => (.panic, s') := rfl

@[simp] theorem run_pure (a : α) (s : σ) : (pure a : Call ε σ α).run s = (.ok a, s) := rfl

@[simp] theorem run_bail (e : ε) (s : σ) : (bail e : Call ε σ α).run s = (.err e, s) := rfl

@[simp] theorem run_modify (g : σ → σ) (s : σ) :
    (modify g : Call ε σ PUnit).run s = (.ok ⟨⟩, g s) := rfl

@[simp] theorem run_get_bind (f : σ → Call ε σ β) (s : σ) :
    ((get : Call ε σ σ) >>= f).run s = (f s).run s := rfl

@[simp] theorem run_modify_bind (g : σ → σ) (f : PUnit → Call ε σ β) (s : σ) :
    ((modify g : Call ε σ PUnit) >>= f).run s = (f ⟨⟩).run (g s) := rfl

/-- A result of another layer, with `?`. -/
def ofOutcome {ε' : Type} (wrap : ε' → ε) : Outcome ε' α → Call ε σ α
  | .ok a => pure a
  | .err e => bail (wrap e)
  | .panic => MonadPanic.panic

@[simp] theorem bail_bind (e : ε) (f : α → Call ε σ β) :
    ((bail e : Call ε σ α) >>= f) = bail e := rfl

end Call
