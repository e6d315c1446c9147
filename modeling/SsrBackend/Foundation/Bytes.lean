import Mathlib.Algebra.Order.Ring.Nat
import Mathlib.Data.List.Basic

/-!
Windows of a list and the fixed-width integers stored in byte strings. A window
that ends inside a list does not see what is appended behind it; every
stability fact about a decoder is a use of `window_append`.
-/

section Window

variable {α : Type}

/-- The elements at positions `lo, .., hi - 1`. -/
def window (buf : List α) (lo hi : Nat) : List α := (buf.take hi).drop lo

theorem length_window (buf : List α) (lo hi : Nat) :
    (window buf lo hi).length = min hi buf.length - lo := by
  simp [window]

theorem window_zero (buf : List α) (hi : Nat) : window buf 0 hi = buf.take hi := rfl

theorem window_to_end (buf : List α) (lo : Nat) : window buf lo buf.length = buf.drop lo := by
  rw [window, List.take_length]

theorem window_append {buf : List α} {hi : Nat} (h : hi ≤ buf.length) (tail : List α)
    (lo : Nat) : window (buf ++ tail) lo hi = window buf lo hi := by
  simp only [window, List.take_append_of_le_length h]

/-- A field between what precedes it and what follows it. -/
theorem window_field (before field after : List α) {lo hi : Nat}
    (hlo : lo = before.length) (hhi : hi = before.length + field.length) :
    window (before ++ (field ++ after)) lo hi = field := by
  subst hlo hhi
  rw [window, ← List.append_assoc, List.take_left' (by simp), List.drop_left]

theorem window_of_eq_append {buf : List α} (before field after : List α) {lo hi : Nat}
    (h : buf = before ++ (field ++ after)) (hlo : lo = before.length)
    (hhi : hi = before.length + field.length) : window buf lo hi = field := by
  rw [h, window_field before field after hlo hhi]

theorem window_head (field after : List α) {hi : Nat} (hhi : hi = field.length) :
    window (field ++ after) 0 hi = field := by
  simpa using window_field [] field after rfl (by simpa using hhi)

theorem window_last (before field : List α) {lo hi : Nat}
    (hlo : lo = before.length) (hhi : hi = before.length + field.length) :
    window (before ++ field) lo hi = field := by
  simpa using window_field before field [] hlo hhi

/-- A window behind `before` is a window of what follows. -/
theorem window_after (before rest : List α) (lo hi : Nat) :
    window (before ++ rest) (before.length + lo) (before.length + hi) = window rest lo hi := by
  rw [window, List.take_length_add_append, List.drop_length_add_append, window]

theorem window_self (buf : List α) (i : Nat) : window buf i i = [] := by
  rw [window, List.drop_eq_nil_iff, List.length_take]
  omega

theorem window_cons {buf : List α} {lo hi : Nat} (h : lo < hi) (hb : hi ≤ buf.length) :
    window buf lo hi = buf[lo] :: window buf (lo + 1) hi := by
  have hl : lo < (buf.take hi).length := by simp only [List.length_take]; omega
  rw [window, List.drop_eq_getElem_cons hl, List.getElem_take, window]

theorem window_take (buf : List α) (lo : Nat) {hi n : Nat} (h : hi ≤ n) :
    window (buf.take n) lo hi = window buf lo hi := by
  rw [window, window, List.take_take, Nat.min_eq_left h]

end Window

/-- The `width` low bytes of `n`, least significant first. -/
def leBytes : Nat → Nat → List UInt8
  | 0, _ => []
  | width + 1, n => UInt8.ofNat n :: leBytes width (n / 256)

/-- The integer a little-endian byte string stands for. -/
def leValue : List UInt8 → Nat
  | [] => 0
  | b :: rest => b.toNat + 256 * leValue rest

@[simp] theorem length_leBytes (width n : Nat) : (leBytes width n).length = width := by
  induction width generalizing n with
  | zero => rfl
  | succ width ih => simp [leBytes, ih]

theorem leValue_leBytes (width n : Nat) : leValue (leBytes width n) = n % 256 ^ width := by
  induction width generalizing n with
  | zero => simp [leBytes, leValue, Nat.mod_one]
  | succ width ih =>
      have hb : (UInt8.ofNat n).toNat = n % 256 := by simp
      rw [leBytes, leValue, ih, hb, Nat.pow_succ', Nat.mod_mul]

theorem leValue_leBytes_of_lt {width n : Nat} (h : n < 256 ^ width) :
    leValue (leBytes width n) = n := by
  rw [leValue_leBytes, Nat.mod_eq_of_lt h]

/-- A byte string as an array of `n` bytes, cut or zero-filled to its size. -/
def block (n : Nat) (bytes : List UInt8) : Vector UInt8 n :=
  Vector.ofFn fun i => bytes.getD i 0

theorem toList_block {n : Nat} {bytes : List UInt8} (h : bytes.length = n) :
    (block n bytes).toList = bytes := by
  apply List.ext_getElem
  · simp [h]
  · intro i hi hb
    simp [block, List.getD_eq_getElem?_getD, List.getElem?_eq_getElem hb]

theorem block_toList {n : Nat} (v : Vector UInt8 n) : block n v.toList = v := by
  ext i hi
  simp [block, List.getD_eq_getElem?_getD]
