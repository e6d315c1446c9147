import Mathlib.Algebra.Order.Ring.Nat
import Mathlib.Data.List.Basic

/-!
Stream ciphers that XOR data with the bytes of a generator. The generator's
state moves by one step for each byte and never sees the data, so cutting the
data into calls changes nothing and the same operation encrypts and decrypts.
-/

namespace Keystream

variable {σ : Type}

/-- XOR the data with the bytes that `next` yields from `s` on. -/
def xorStream (next : σ → UInt8 × σ) : σ → List UInt8 → List UInt8 × σ
  | s, [] => ([], s)
  | s, b :: rest =>
      let r := xorStream next (next s).2 rest
      ((b ^^^ (next s).1) :: r.1, r.2)

/-- The generator's state after `n` bytes. -/
def advance (next : σ → UInt8 × σ) : Nat → σ → σ
  | 0, s => s
  | n + 1, s => advance next n (next s).2

theorem length_xorStream (next : σ → UInt8 × σ) (s : σ) (data : List UInt8) :
    (xorStream next s data).1.length = data.length := by
  induction data generalizing s with
  | nil => rfl
  | cons b rest ih => simp [xorStream, ih]

theorem xorStream_append (next : σ → UInt8 × σ) (s : σ) (x y : List UInt8) :
    xorStream next s (x ++ y) =
      ((xorStream next s x).1 ++ (xorStream next (xorStream next s x).2 y).1,
        (xorStream next (xorStream next s x).2 y).2) := by
  induction x generalizing s with
  | nil => rfl
  | cons b rest ih => simp only [List.cons_append, xorStream, ih]

/-- The state depends on how much data passed, not on the data. -/
theorem xorStream_state (next : σ → UInt8 × σ) (s : σ) (data : List UInt8) :
    (xorStream next s data).2 = advance next data.length s := by
  induction data generalizing s with
  | nil => rfl
  | cons b rest ih => simp only [xorStream, List.length_cons, advance, ih]

theorem xorStream_involutive (next : σ → UInt8 × σ) (s : σ) (data : List UInt8) :
    xorStream next s (xorStream next s data).1 = (data, (xorStream next s data).2) := by
  induction data generalizing s with
  | nil => rfl
  | cons b rest ih => simp only [xorStream, ih, UInt8.xor_assoc, UInt8.xor_self, UInt8.xor_zero]

/-- The byte that the generator yields at position `n`, counted from the state `s` on. -/
def byteAt (next : σ → UInt8 × σ) (s : σ) (n : Nat) : UInt8 := (next (advance next n s)).1

/-- Each byte is masked by the keystream byte of its position. -/
theorem xorStream_getElem? (next : σ → UInt8 × σ) (s : σ) (data : List UInt8) (n : Nat) :
    (xorStream next s data).1[n]? = data[n]?.map (· ^^^ byteAt next s n) := by
  induction data generalizing s n with
  | nil => rfl
  | cons b rest ih =>
      cases n with
      | zero => rfl
      | succ n => exact ih (next s).2 n

/-- The outputs of one call after the other, and the state behind the last. -/
def xorCalls (next : σ → UInt8 × σ) : σ → List (List UInt8) → List (List UInt8) × σ
  | s, [] => ([], s)
  | s, call :: calls =>
      let r := xorStream next s call
      let rest := xorCalls next r.2 calls
      (r.1 :: rest.1, rest.2)

/-- How the data is cut into calls is not seen in the output or in the state. -/
theorem xorCalls_flatten (next : σ → UInt8 × σ) (s : σ) (calls : List (List UInt8)) :
    ((xorCalls next s calls).1.flatten, (xorCalls next s calls).2) =
      xorStream next s calls.flatten := by
  induction calls generalizing s with
  | nil => rfl
  | cons call calls ih =>
      have hrest := ih (xorStream next s call).2
      rw [List.flatten_cons, xorStream_append, ← hrest]
      rfl

/-- A second generator in the same state undoes the first, however both are called. -/
theorem xorCalls_inverse (next : σ → UInt8 × σ) (s : σ) {sent received : List (List UInt8)}
    (h : received.flatten = (xorCalls next s sent).1.flatten) :
    (xorCalls next s received).1.flatten = sent.flatten := by
  have hsent := congrArg Prod.fst (xorCalls_flatten next s sent)
  have hreceived := congrArg Prod.fst (xorCalls_flatten next s received)
  dsimp only at hsent hreceived
  rw [hreceived, h, hsent, xorStream_involutive]

end Keystream
