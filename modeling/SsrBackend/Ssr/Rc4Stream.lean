import SsrBackend.Foundation.Machine
import SsrBackend.Ssr.Rc4

/-!
The table and the keystream of RC4 (`ssr/rc4.rs`). Key schedule and generator
change the table by swaps only, so it stays a permutation of the bytes; the
generator does not see the data, so the keystream is a function of the key.
-/

namespace SsrBackend

open Keystream

namespace Rc4

/-- The table holds every byte once. -/
def IsPermutation (s : Vector UInt8 256) : Prop :=
  s.toList.Perm ((List.range 256).map UInt8.ofNat)

theorem isPermutation_identity :
    IsPermutation (Vector.ofFn fun idx : Fin 256 => UInt8.ofNat idx.val) := by
  have heq : (Vector.ofFn fun idx : Fin 256 => UInt8.ofNat idx.val).toList =
      (List.range 256).map UInt8.ofNat := by
    apply List.ext_getElem
    · simp
    · intro i hi hi'
      rw [Vector.getElem_toList, Vector.getElem_ofFn, List.getElem_map, List.getElem_range]
  rw [IsPermutation, heq]

theorem IsPermutation.swap {s : Vector UInt8 256} (h : IsPermutation s) (a b : UInt8) :
    IsPermutation (Rc4.swap s a b) :=
  (Vector.swap_perm a.toNat_lt b.toNat_lt).toList.trans h

theorem new_isPermutation (key : List UInt8) (hkey : 0 < key.length) :
    IsPermutation (new key hkey).s := by
  have hturn (state : Vector UInt8 256 × UInt8) (i : Fin 256) (h : IsPermutation state.1) :
      IsPermutation (scheduleTurn key hkey state i).1 := h.swap _ _
  rw [new]
  dsimp only
  generalize List.finRange 256 = turns
  generalize hs : (Vector.ofFn fun idx : Fin 256 => UInt8.ofNat idx.val) = s
  have hstart : IsPermutation (s, (0 : UInt8)).1 := hs ▸ isPermutation_identity
  exact @Machine.run_keeps _ _ (scheduleTurn key hkey) (IsPermutation ·.1) hturn (s, 0) hstart turns

theorem next_isPermutation {c : Rc4} (h : IsPermutation c.s) : IsPermutation c.next.2.s :=
  h.swap _ _

theorem advance_isPermutation {c : Rc4} (h : IsPermutation c.s) (n : Nat) :
    IsPermutation (advance next n c).s := by
  induction n generalizing c with
  | zero => exact h
  | succ n ih => exact ih (next_isPermutation h)

/-- The outputs of one `apply` after the other, and the state behind the last. -/
def applyCalls (c : Rc4) (calls : List (List UInt8)) : List (List UInt8) × Rc4 :=
  xorCalls next c calls

/-- The keystream of a key. -/
def keystream (key : List UInt8) (hkey : 0 < key.length) (n : Nat) : UInt8 :=
  byteAt next (new key hkey) n

theorem applyCalls_state (c : Rc4) (calls : List (List UInt8)) :
    (c.applyCalls calls).2 = advance next calls.flatten.length c := by
  have h := congrArg Prod.snd (xorCalls_flatten next c calls)
  rw [xorStream_state] at h
  exact h

theorem applyCalls_getElem? (c : Rc4) (calls : List (List UInt8)) (n : Nat) :
    (c.applyCalls calls).1.flatten[n]? =
      calls.flatten[n]?.map (· ^^^ byteAt next c n) := by
  have h := congrArg Prod.fst (xorCalls_flatten next c calls)
  dsimp only at h
  rw [applyCalls, h, xorStream_getElem?]

/-- The stream of a key, for every way of calling `apply`. -/
theorem rc4_stream (P : Primitives) :
    (∀ (key : List UInt8) (hkey : 0 < key.length) (calls : List (List UInt8)),
      IsPermutation ((new key hkey).applyCalls calls).2.s ∧
        ∀ n, ((new key hkey).applyCalls calls).1.flatten[n]? =
          calls.flatten[n]?.map (· ^^^ keystream key hkey n)) ∧
    (∀ (c : Rc4) (x y : List UInt8),
      c.apply (x ++ y) = ((c.apply x).1 ++ ((c.apply x).2.apply y).1, ((c.apply x).2.apply y).2)) ∧
    ∀ (masterKey iv : List UInt8) (sent received : List (List UInt8)),
      received.flatten = ((Rc4Md5.new P masterKey iv).applyCalls sent).1.flatten →
        ((Rc4Md5.new P masterKey iv).applyCalls received).1.flatten = sent.flatten := by
  refine ⟨?_, ?_, ?_⟩
  · intro key hkey calls
    refine ⟨?_, applyCalls_getElem? (new key hkey) calls⟩
    rw [applyCalls_state]
    exact advance_isPermutation (new_isPermutation key hkey) _
  · intro c x y
    exact xorStream_append next c x y
  · intro masterKey iv sent received h
    exact xorCalls_inverse next _ h

end Rc4

end SsrBackend
