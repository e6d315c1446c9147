import SsrBackend.Foundation.Keystream
import SsrBackend.Ssr.Kdf

/-!
The `rc4-md5` stream cipher (`ssr/rc4.rs`): the classic key schedule and
generator, keyed per direction by the digest of master key and IV.
-/

namespace SsrBackend

open Keystream

structure Rc4 where
  s : Vector UInt8 256
  i : UInt8
  j : UInt8

namespace Rc4

/-- `s[b as usize]`: a byte is always an index into the table. -/
def entry (s : Vector UInt8 256) (b : UInt8) : UInt8 := s.get ⟨b.toNat, b.toNat_lt⟩

/-- `s.swap(a as usize, b as usize)`. -/
def swap (s : Vector UInt8 256) (a b : UInt8) : Vector UInt8 256 :=
  s.swap a.toNat b.toNat a.toNat_lt b.toNat_lt

/-- One turn of the key schedule. -/
def scheduleTurn (key : List UInt8) (hkey : 0 < key.length)
    (state : Vector UInt8 256 × UInt8) (i : Fin 256) : Vector UInt8 256 × UInt8 :=
  let j := state.2 + state.1.get i + key.get ⟨i.val % key.length, Nat.mod_lt _ hkey⟩
  (swap state.1 (UInt8.ofNat i.val) j, j)

/-- `Rc4::new`. An empty key would divide by zero; every caller passes a digest. -/
def new (key : List UInt8) (hkey : 0 < key.length) : Rc4 :=
  let s := Vector.ofFn fun idx : Fin 256 => UInt8.ofNat idx.val
  ⟨((List.finRange 256).foldl (scheduleTurn key hkey) (s, 0)).1, 0, 0⟩

/-- One generator step: the next keystream byte and the state behind it. -/
def next (c : Rc4) : UInt8 × Rc4 :=
  let i := c.i + 1
  let j := c.j + entry c.s i
  let s := swap c.s i j
  (entry s (entry s i + entry s j), ⟨s, i, j⟩)

/-- `apply`: the processed data and the state behind it. -/
def apply (c : Rc4) (data : List UInt8) : List UInt8 × Rc4 := xorStream next c data

end Rc4

/-- `Rc4Md5::new(master_key, iv)`. -/
def Rc4Md5.new (P : Primitives) (masterKey iv : List UInt8) : Rc4 :=
  Rc4.new (P.md5 (masterKey ++ iv)).toList (by simp)

end SsrBackend
