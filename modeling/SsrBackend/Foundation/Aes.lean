import Mathlib.Algebra.Order.Ring.Nat
import Mathlib.Data.List.Basic

/-!
The AES-128 block cipher, and that its inverse undoes it. A round is a byte
substitution, a permutation of the block, a map that is linear in each column
and a key addition; each of the four has its inverse, and only the additivity of
`xtime` enters the argument for the column map.
-/

namespace Aes

abbrev Block : Type := Vector UInt8 16

/-- The S-box. -/
def sbox : List (List UInt8) := [
  [0x63, 0x7c, 0x77, 0x7b, 0xf2, 0x6b, 0x6f, 0xc5, 0x30, 0x01, 0x67, 0x2b, 0xfe, 0xd7, 0xab, 0x76],
  [0xca, 0x82, 0xc9, 0x7d, 0xfa, 0x59, 0x47, 0xf0, 0xad, 0xd4, 0xa2, 0xaf, 0x9c, 0xa4, 0x72, 0xc0],
  [0xb7, 0xfd, 0x93, 0x26, 0x36, 0x3f, 0xf7, 0xcc, 0x34, 0xa5, 0xe5, 0xf1, 0x71, 0xd8, 0x31, 0x15],
  [0x04, 0xc7, 0x23, 0xc3, 0x18, 0x96, 0x05, 0x9a, 0x07, 0x12, 0x80, 0xe2, 0xeb, 0x27, 0xb2, 0x75],
  [0x09, 0x83, 0x2c, 0x1a, 0x1b, 0x6e, 0x5a, 0xa0, 0x52, 0x3b, 0xd6, 0xb3, 0x29, 0xe3, 0x2f, 0x84],
  [0x53, 0xd1, 0x00, 0xed, 0x20, 0xfc, 0xb1, 0x5b, 0x6a, 0xcb, 0xbe, 0x39, 0x4a, 0x4c, 0x58, 0xcf],
  [0xd0, 0xef, 0xaa, 0xfb, 0x43, 0x4d, 0x33, 0x85, 0x45, 0xf9, 0x02, 0x7f, 0x50, 0x3c, 0x9f, 0xa8],
  [0x51, 0xa3, 0x40, 0x8f, 0x92, 0x9d, 0x38, 0xf5, 0xbc, 0xb6, 0xda, 0x21, 0x10, 0xff, 0xf3, 0xd2],
  [0xcd, 0x0c, 0x13, 0xec, 0x5f, 0x97, 0x44, 0x17, 0xc4, 0xa7, 0x7e, 0x3d, 0x64, 0x5d, 0x19, 0x73],
  [0x60, 0x81, 0x4f, 0xdc, 0x22, 0x2a, 0x90, 0x88, 0x46, 0xee, 0xb8, 0x14, 0xde, 0x5e, 0x0b, 0xdb],
  [0xe0, 0x32, 0x3a, 0x0a, 0x49, 0x06, 0x24, 0x5c, 0xc2, 0xd3, 0xac, 0x62, 0x91, 0x95, 0xe4, 0x79],
  [0xe7, 0xc8, 0x37, 0x6d, 0x8d, 0xd5, 0x4e, 0xa9, 0x6c, 0x56, 0xf4, 0xea, 0x65, 0x7a, 0xae, 0x08],
  [0xba, 0x78, 0x25, 0x2e, 0x1c, 0xa6, 0xb4, 0xc6, 0xe8, 0xdd, 0x74, 0x1f, 0x4b, 0xbd, 0x8b, 0x8a],
  [0x70, 0x3e, 0xb5, 0x66, 0x48, 0x03, 0xf6, 0x0e, 0x61, 0x35, 0x57, 0xb9, 0x86, 0xc1, 0x1d, 0x9e],
  [0xe1, 0xf8, 0x98, 0x11, 0x69, 0xd9, 0x8e, 0x94, 0x9b, 0x1e, 0x87, 0xe9, 0xce, 0x55, 0x28, 0xdf],
  [0x8c, 0xa1, 0x89, 0x0d, 0xbf, 0xe6, 0x42, 0x68, 0x41, 0x99, 0x2d, 0x0f, 0xb0, 0x54, 0xbb, 0x16]]

/-- The inverse of the S-box. -/
def invSbox : List (List UInt8) := [
  [0x52, 0x09, 0x6a, 0xd5, 0x30, 0x36, 0xa5, 0x38, 0xbf, 0x40, 0xa3, 0x9e, 0x81, 0xf3, 0xd7, 0xfb],
  [0x7c, 0xe3, 0x39, 0x82, 0x9b, 0x2f, 0xff, 0x87, 0x34, 0x8e, 0x43, 0x44, 0xc4, 0xde, 0xe9, 0xcb],
  [0x54, 0x7b, 0x94, 0x32, 0xa6, 0xc2, 0x23, 0x3d, 0xee, 0x4c, 0x95, 0x0b, 0x42, 0xfa, 0xc3, 0x4e],
  [0x08, 0x2e, 0xa1, 0x66, 0x28, 0xd9, 0x24, 0xb2, 0x76, 0x5b, 0xa2, 0x49, 0x6d, 0x8b, 0xd1, 0x25],
  [0x72, 0xf8, 0xf6, 0x64, 0x86, 0x68, 0x98, 0x16, 0xd4, 0xa4, 0x5c, 0xcc, 0x5d, 0x65, 0xb6, 0x92],
  [0x6c, 0x70, 0x48, 0x50, 0xfd, 0xed, 0xb9, 0xda, 0x5e, 0x15, 0x46, 0x57, 0xa7, 0x8d, 0x9d, 0x84],
  [0x90, 0xd8, 0xab, 0x00, 0x8c, 0xbc, 0xd3, 0x0a, 0xf7, 0xe4, 0x58, 0x05, 0xb8, 0xb3, 0x45, 0x06],
  [0xd0, 0x2c, 0x1e, 0x8f, 0xca, 0x3f, 0x0f, 0x02, 0xc1, 0xaf, 0xbd, 0x03, 0x01, 0x13, 0x8a, 0x6b],
  [0x3a, 0x91, 0x11, 0x41, 0x4f, 0x67, 0xdc, 0xea, 0x97, 0xf2, 0xcf, 0xce, 0xf0, 0xb4, 0xe6, 0x73],
  [0x96, 0xac, 0x74, 0x22, 0xe7, 0xad, 0x35, 0x85, 0xe2, 0xf9, 0x37, 0xe8, 0x1c, 0x75, 0xdf, 0x6e],
  [0x47, 0xf1, 0x1a, 0x71, 0x1d, 0x29, 0xc5, 0x89, 0x6f, 0xb7, 0x62, 0x0e, 0xaa, 0x18, 0xbe, 0x1b],
  [0xfc, 0x56, 0x3e, 0x4b, 0xc6, 0xd2, 0x79, 0x20, 0x9a, 0xdb, 0xc0, 0xfe, 0x78, 0xcd, 0x5a, 0xf4],
  [0x1f, 0xdd, 0xa8, 0x33, 0x88, 0x07, 0xc7, 0x31, 0xb1, 0x12, 0x10, 0x59, 0x27, 0x80, 0xec, 0x5f],
  [0x60, 0x51, 0x7f, 0xa9, 0x19, 0xb5, 0x4a, 0x0d, 0x2d, 0xe5, 0x7a, 0x9f, 0x93, 0xc9, 0x9c, 0xef],
  [0xa0, 0xe0, 0x3b, 0x4d, 0xae, 0x2a, 0xf5, 0xb0, 0xc8, 0xeb, 0xbb, 0x3c, 0x83, 0x53, 0x99, 0x61],
  [0x17, 0x2b, 0x04, 0x7e, 0xba, 0x77, 0xd6, 0x26, 0xe1, 0x69, 0x14, 0x63, 0x55, 0x21, 0x0c, 0x7d]]

/-- The entry of a table with sixteen rows of sixteen. -/
def entry (table : List (List UInt8)) (b : UInt8) : UInt8 :=
  (table.getD (b.toNat / 16) []).getD (b.toNat % 16) 0

def subByte (b : UInt8) : UInt8 := entry sbox b

def invSubByte (b : UInt8) : UInt8 := entry invSbox b

theorem invSubByte_subByte (b : UInt8) : invSubByte (subByte b) = b := by
  have h : ∀ n : Fin 256, invSubByte (subByte (UInt8.ofNat n)) = UInt8.ofNat n := by
    decide +kernel
  have hb := h ⟨b.toNat, b.toNat_lt⟩
  simpa using hb

/-- Multiplication by the field element of degree one, on the bits of a byte. -/
def xtime (b : UInt8) : UInt8 :=
  let carry := b >>> 7
  (b <<< 1) ^^^ (carry ^^^ (carry <<< 1) ^^^ (carry <<< 3) ^^^ (carry <<< 4))

theorem xor_left_comm (a b c : UInt8) : a ^^^ (b ^^^ c) = b ^^^ (a ^^^ c) := by
  rw [← UInt8.xor_assoc, UInt8.xor_comm a b, UInt8.xor_assoc]

theorem xor_cancel (a b : UInt8) : a ^^^ (a ^^^ b) = b := by
  rw [← UInt8.xor_assoc, UInt8.xor_self, UInt8.zero_xor]

theorem xtime_xor (a b : UInt8) : xtime (a ^^^ b) = xtime a ^^^ xtime b := by
  simp only [xtime, UInt8.shiftLeft_xor, UInt8.shiftRight_xor, UInt8.xor_assoc, UInt8.xor_comm,
    xor_left_comm]

/-- One byte of a mixed column, from the bytes of the column in cyclic order. -/
def mixByte (a b c d : UInt8) : UInt8 := xtime a ^^^ (xtime b ^^^ b) ^^^ c ^^^ d

def invMixByte (a b c d : UInt8) : UInt8 :=
  (xtime (xtime (xtime a)) ^^^ xtime (xtime a) ^^^ xtime a) ^^^
    (xtime (xtime (xtime b)) ^^^ xtime b ^^^ b) ^^^
    (xtime (xtime (xtime c)) ^^^ xtime (xtime c) ^^^ c) ^^^ (xtime (xtime (xtime d)) ^^^ d)

theorem mixByte_xor (a b c d a' b' c' d' : UInt8) :
    mixByte (a ^^^ a') (b ^^^ b') (c ^^^ c') (d ^^^ d') =
      mixByte a b c d ^^^ mixByte a' b' c' d' := by
  simp only [mixByte, xtime_xor]
  ac_rfl

theorem invMixByte_xor (a b c d a' b' c' d' : UInt8) :
    invMixByte (a ^^^ a') (b ^^^ b') (c ^^^ c') (d ^^^ d') =
      invMixByte a b c d ^^^ invMixByte a' b' c' d' := by
  simp only [invMixByte, xtime_xor]
  ac_rfl

/-- Mixing and unmixing a column, first byte. -/
def remix (a b c d : UInt8) : UInt8 :=
  invMixByte (mixByte a b c d) (mixByte b c d a) (mixByte c d a b) (mixByte d a b c)

theorem remix_xor (a b c d a' b' c' d' : UInt8) :
    remix (a ^^^ a') (b ^^^ b') (c ^^^ c') (d ^^^ d') =
      remix a b c d ^^^ remix a' b' c' d' := by
  simp only [remix, mixByte_xor, invMixByte_xor]

/-- A column with one byte that is not zero. -/
theorem remix_single (b : UInt8) :
    remix b 0 0 0 = b ∧ remix 0 b 0 0 = 0 ∧ remix 0 0 b 0 = 0 ∧ remix 0 0 0 b = 0 := by
  have h0 : xtime 0 = 0 := rfl
  simp only [remix, mixByte, invMixByte, xtime_xor, h0, UInt8.xor_comm, xor_left_comm,
    xor_cancel, UInt8.xor_self, UInt8.xor_zero, and_self]

theorem remix_eq (a b c d : UInt8) : remix a b c d = a := by
  have hsum : remix a b c d =
      remix a 0 0 0 ^^^ (remix 0 b 0 0 ^^^ (remix 0 0 c 0 ^^^ remix 0 0 0 d)) := by
    simp only [← remix_xor, UInt8.xor_zero, UInt8.zero_xor]
  rw [hsum, (remix_single a).1, (remix_single b).2.1, (remix_single c).2.2.1,
    (remix_single d).2.2.2]
  simp

/-- The position of row `i % 4` moved by `k` columns. -/
def rowShift (k : Nat) (i : Fin 16) : Fin 16 := ⟨i % 4 + 4 * ((i / 4 + k * (i % 4)) % 4), by omega⟩

/-- The position `k` rows below, in the same column. -/
def inColumn (k : Nat) (i : Fin 16) : Fin 16 := ⟨4 * (i / 4) + (i % 4 + k) % 4, by omega⟩

def subBytes (b : Block) : Block := b.map subByte

def invSubBytes (b : Block) : Block := b.map invSubByte

def shiftRows (b : Block) : Block := Vector.ofFn fun i => b.get (rowShift 1 i)

def invShiftRows (b : Block) : Block := Vector.ofFn fun i => b.get (rowShift 3 i)

def mixColumns (b : Block) : Block := Vector.ofFn fun i =>
  mixByte (b.get i) (b.get (inColumn 1 i)) (b.get (inColumn 2 i)) (b.get (inColumn 3 i))

def invMixColumns (b : Block) : Block := Vector.ofFn fun i =>
  invMixByte (b.get i) (b.get (inColumn 1 i)) (b.get (inColumn 2 i)) (b.get (inColumn 3 i))

def addRoundKey (key b : Block) : Block := Vector.ofFn fun i => b.get i ^^^ key.get i

/-- The round key behind `key`. -/
def nextKey (key : Block) (rcon : UInt8) : Block :=
  let w0 : Fin 4 → UInt8 := fun r =>
    key[r.val] ^^^ subByte (key[12 + (r.val + 1) % 4]) ^^^ (if r.val = 0 then rcon else 0)
  let w1 : Fin 4 → UInt8 := fun r => key[4 + r.val] ^^^ w0 r
  let w2 : Fin 4 → UInt8 := fun r => key[8 + r.val] ^^^ w1 r
  let w3 : Fin 4 → UInt8 := fun r => key[12 + r.val] ^^^ w2 r
  Vector.ofFn fun i : Fin 16 =>
    let r : Fin 4 := ⟨i % 4, by omega⟩
    if i.val < 4 then w0 r else if i.val < 8 then w1 r else if i.val < 12 then w2 r else w3 r

/-- The round keys behind the first one. -/
def roundKeys : Block → List UInt8 → List Block
  | _, [] => []
  | key, rcon :: rest => nextKey key rcon :: roundKeys (nextKey key rcon) rest

def rcons : List UInt8 := [0x01, 0x02, 0x04, 0x08, 0x10, 0x20, 0x40, 0x80, 0x1b]

def lastRcon : UInt8 := 0x36

def round (b key : Block) : Block := addRoundKey key (mixColumns (shiftRows (subBytes b)))

def invRound (key b : Block) : Block :=
  invSubBytes (invShiftRows (invMixColumns (addRoundKey key b)))

def lastKey (key : Block) : Block := nextKey ((roundKeys key rcons).getLastD key) lastRcon

def encrypt (key b : Block) : Block :=
  let middle := (roundKeys key rcons).foldl round (addRoundKey key b)
  addRoundKey (lastKey key) (shiftRows (subBytes middle))

def decrypt (key b : Block) : Block :=
  let middle := invSubBytes (invShiftRows (addRoundKey (lastKey key) b))
  addRoundKey key ((roundKeys key rcons).foldr invRound middle)

theorem get_ofFn (f : Fin 16 → UInt8) (i : Fin 16) : (Vector.ofFn f).get i = f i := by
  have h : (Vector.ofFn f)[i.val] = f i := Vector.getElem_ofFn i.isLt
  exact h

theorem block_ext {b c : Block} (h : ∀ i, b.get i = c.get i) : b = c := by
  apply Vector.ext
  intro i hi
  exact h ⟨i, hi⟩

theorem addRoundKey_twice (key b : Block) : addRoundKey key (addRoundKey key b) = b := by
  apply block_ext
  intro i
  rw [addRoundKey, get_ofFn, addRoundKey, get_ofFn, UInt8.xor_assoc, UInt8.xor_self,
    UInt8.xor_zero]

theorem invSubBytes_subBytes (b : Block) : invSubBytes (subBytes b) = b := by
  rw [invSubBytes, subBytes, Vector.map_map]
  apply Vector.ext
  intro i hi
  rw [Vector.getElem_map]
  exact invSubByte_subByte b[i]

theorem invShiftRows_shiftRows (b : Block) : invShiftRows (shiftRows b) = b := by
  have h : ∀ i : Fin 16, rowShift 1 (rowShift 3 i) = i := by decide
  apply block_ext
  intro i
  rw [invShiftRows, get_ofFn, shiftRows, get_ofFn, h]

theorem inColumn_inColumn (i : Fin 16) :
    (inColumn 1 (inColumn 1 i) = inColumn 2 i ∧ inColumn 2 (inColumn 1 i) = inColumn 3 i ∧
      inColumn 3 (inColumn 1 i) = i) ∧
    (inColumn 1 (inColumn 2 i) = inColumn 3 i ∧ inColumn 2 (inColumn 2 i) = i ∧
      inColumn 3 (inColumn 2 i) = inColumn 1 i) ∧
    inColumn 1 (inColumn 3 i) = i ∧ inColumn 2 (inColumn 3 i) = inColumn 1 i ∧
      inColumn 3 (inColumn 3 i) = inColumn 2 i := by
  revert i
  decide

theorem invMixColumns_mixColumns (b : Block) : invMixColumns (mixColumns b) = b := by
  have hmix (j : Fin 16) : (mixColumns b).get j = mixByte (b.get j) (b.get (inColumn 1 j))
      (b.get (inColumn 2 j)) (b.get (inColumn 3 j)) := get_ofFn _ j
  apply block_ext
  intro i
  obtain ⟨⟨h11, h12, h13⟩, ⟨h21, h22, h23⟩, h31, h32, h33⟩ := inColumn_inColumn i
  rw [invMixColumns, get_ofFn, hmix, hmix, hmix, hmix, h11, h12, h13, h21, h22, h23, h31, h32,
    h33]
  exact remix_eq _ _ _ _

theorem invRound_round (key b : Block) : invRound key (round b key) = b := by
  rw [invRound, round, addRoundKey_twice, invMixColumns_mixColumns, invShiftRows_shiftRows,
    invSubBytes_subBytes]

theorem foldr_invRound (keys : List Block) (b : Block) :
    keys.foldr invRound (keys.foldl round b) = b := by
  induction keys generalizing b with
  | nil => rfl
  | cons key keys ih => rw [List.foldl_cons, List.foldr_cons, ih, invRound_round]

/-- Decryption undoes encryption. -/
theorem decrypt_encrypt (key b : Block) : decrypt key (encrypt key b) = b := by
  simp only [decrypt, encrypt]
  rw [addRoundKey_twice, invShiftRows_shiftRows, invSubBytes_subBytes, foldr_invRound,
    addRoundKey_twice]

example : encrypt (Vector.ofFn fun i => UInt8.ofNat i) (Vector.ofFn fun i => UInt8.ofNat (17 * i)) =
    #v[0x69, 0xc4, 0xe0, 0xd8, 0x6a, 0x7b, 0x04, 0x30, 0xd8, 0xcd, 0xb7, 0x80, 0x70, 0xb4, 0xc5,
      0x5a] := by
  decide +kernel

end Aes
