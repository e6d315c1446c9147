import Mathlib.Data.List.Infix
import SsrBackend.Ssr.UdpPacket

/-!
What the loop of `evp_bytes_to_key` computes: the first bytes of an unbounded
sequence of digests, each over the one before it and the password. The length asked
for only says where the sequence is cut, so keys of one password are prefixes of
each other and the key of a user is the master key of the shorter cipher.
-/

namespace SsrBackend

variable (P : Primitives)

/-- The digests of a password, each over the one before it. -/
def evpDigest (password : List UInt8) : Nat → List UInt8
  | 0 => (P.md5 password).toList
  | i + 1 => (P.md5 (evpDigest password i ++ password)).toList

/-- The first `count` digests, one behind the other. -/
def evpDigests (password : List UInt8) (count : Nat) : List UInt8 :=
  (List.range count).flatMap (evpDigest P password)

/-- What the loop hashes in front of the password before digest `i`. -/
def evpPrev (password : List UInt8) : Nat → List UInt8
  | 0 => []
  | i + 1 => evpDigest P password i

theorem evpDigest_eq (password : List UInt8) (i : Nat) :
    evpDigest P password i = (P.md5 (evpPrev P password i ++ password)).toList := by
  cases i with
  | zero => rfl
  | succ i => rfl

@[simp] theorem length_evpDigest (password : List UInt8) (i : Nat) :
    (evpDigest P password i).length = 16 := by
  rw [evpDigest_eq, Vector.length_toList]

theorem evpDigests_succ (password : List UInt8) (count : Nat) :
    evpDigests P password (count + 1) =
      evpDigests P password count ++ evpDigest P password count := by
  simp [evpDigests, List.range_succ]

@[simp] theorem length_evpDigests (password : List UInt8) (count : Nat) :
    (evpDigests P password count).length = 16 * count := by
  induction count with
  | zero => rfl
  | succ count ih =>
      rw [evpDigests_succ, List.length_append, ih, length_evpDigest]
      omega

theorem evpDigests_prefix (password : List UInt8) {count count' : Nat} (h : count ≤ count') :
    evpDigests P password count <+: evpDigests P password count' := by
  induction h with
  | refl => exact List.prefix_rfl
  | step h ih =>
      rw [evpDigests_succ]
      exact ih.trans (List.prefix_append _ _)

/-- The loop from its turn `i` on: it stops at the first digest that reaches the length. -/
theorem evpLoop_digests (password : List UInt8) (keyLen : Nat) {i count : Nat}
    (hcount : keyLen ≤ 16 * count) (hi : i ≤ count) :
    evpLoop P password keyLen (evpDigests P password i) (evpPrev P password i) =
      (evpDigests P password count).take keyLen := by
  induction hn : count - i generalizing i with
  | zero =>
      obtain rfl : i = count := by omega
      rw [evpLoop, if_neg (by rw [length_evpDigests]; omega)]
  | succ n ih =>
      rw [evpLoop]
      by_cases hlt : (evpDigests P password i).length < keyLen
      · rw [if_pos hlt]
        have hnext := ih (i := i + 1) (by omega) (by omega)
        rw [evpDigests_succ] at hnext
        rw [← evpDigest_eq]
        exact hnext
      · rw [if_neg hlt]
        obtain ⟨rest, hrest⟩ := evpDigests_prefix P password hi
        rw [← hrest, List.take_append_of_le_length (Nat.le_of_not_lt hlt)]

/-- `evp_bytes_to_key` cuts the digests at the length. -/
theorem evpBytesToKey_eq (password : List UInt8) {keyLen count : Nat}
    (h : keyLen ≤ 16 * count) :
    evpBytesToKey P password keyLen = (evpDigests P password count).take keyLen :=
  evpLoop_digests P password keyLen h (Nat.zero_le count)

theorem window_evpDigests (password : List UInt8) {i count : Nat} (h : i < count) :
    window (evpDigests P password count) (16 * i) (16 * i + 16) = evpDigest P password i := by
  obtain ⟨rest, hrest⟩ := evpDigests_prefix P password (Nat.succ_le_of_lt h)
  rw [← hrest, evpDigests_succ, List.append_assoc]
  exact window_field _ _ _ (by simp) (by simp)

theorem evpBytesToKey_block (password : List UInt8) (keyLen i : Nat) :
    window (evpBytesToKey P password keyLen) (16 * i) (16 * i + 16) <+:
      evpDigest P password i := by
  have hcut := evpBytesToKey_eq P password (show keyLen ≤ 16 * (keyLen + i + 1) by omega)
  rw [hcut, ← window_evpDigests P password (show i < keyLen + i + 1 by omega)]
  simp only [window, List.take_take]
  exact (List.take_prefix_take_left (Nat.min_le_left _ _) : _ <+: _).drop _

theorem evpBytesToKey_prefix (password : List UInt8) {a b : Nat} (h : a ≤ b) :
    evpBytesToKey P password a <+: evpBytesToKey P password b := by
  rw [evpBytesToKey_eq P password (show a ≤ 16 * b by omega),
    evpBytesToKey_eq P password (show b ≤ 16 * b by omega)]
  exact List.take_prefix_take_left h

theorem deriveUserAuthKey_eq (password : String) :
    deriveUserAuthKey P password = deriveMasterKey P password .rc4Md5 := by
  rw [deriveMasterKey, evpBytesToKey_eq P _ (show CipherKind.rc4Md5.keyLen ≤ 16 * 1 by decide)]
  have hlength : (evpDigests P (asBytes password) 1).length = CipherKind.rc4Md5.keyLen := by
    rw [length_evpDigests]
    rfl
  rw [← hlength, List.take_length, evpDigests_succ]
  rfl

/-- The derived keys for every password: the digests they are cut from, and the lengths
that `new_stream` expects. -/
theorem key_derivation :
    (∀ (password : List UInt8) (n : Nat),
      (evpBytesToKey P password n).length = n ∧
        ∀ i, window (evpBytesToKey P password n) (16 * i) (16 * i + 16) <+:
          evpDigest P password i) ∧
    (∀ (password : List UInt8) (a b : Nat), a ≤ b →
      evpBytesToKey P password a <+: evpBytesToKey P password b) ∧
    ∀ password : String,
      deriveUserAuthKey P password = deriveMasterKey P password .rc4Md5 ∧
      deriveUserAuthKey P password = (deriveMasterKey P password .chacha20Ietf).take 16 ∧
      (deriveMasterKey P password .chacha20Ietf).length = 2 * 16 ∧
      ∀ (kind : CipherKind) (iv : List UInt8), iv.length = kind.ivLen →
        (kind.newStream P (deriveMasterKey P password kind) iv : Outcome CodecError StreamCipher) =
          .ok (kind.stream P (deriveMasterKey P password kind) iv) := by
  refine ⟨?_, ?_, ?_⟩
  · intro password n
    exact ⟨length_evpBytesToKey P password n, evpBytesToKey_block P password n⟩
  · intro password a b h
    exact evpBytesToKey_prefix P password h
  · intro password
    have hlength (kind : CipherKind) : (deriveMasterKey P password kind).length = kind.keyLen :=
      length_evpBytesToKey P _ _
    refine ⟨deriveUserAuthKey_eq P password, ?_, hlength .chacha20Ietf, ?_⟩
    · have hprefix := evpBytesToKey_prefix P (asBytes password) (show 16 ≤ 32 by decide)
      rw [deriveUserAuthKey_eq]
      have htake := List.prefix_iff_eq_take.mp hprefix
      rw [length_evpBytesToKey] at htake
      exact htake
    · intro kind iv hiv
      exact CipherKind.newStream_of_length P kind (hlength kind) hiv

end SsrBackend
