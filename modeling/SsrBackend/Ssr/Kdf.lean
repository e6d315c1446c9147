import SsrBackend.Foundation.Aes
import SsrBackend.Foundation.Digest
import SsrBackend.Foundation.Outcome

/-!
Key derivation and MAC helpers (`ssr/kdf.rs`). The hash, MAC, block cipher,
keystream and base64 functions come from crates outside the repository; they
are parameters, and only the sizes their Rust types fix are built in. What a
result needs beyond that is a named law.
-/

namespace SsrBackend

/-- The primitives the codec takes from other crates. -/
structure Primitives where
  /-- `md5::Md5`. -/
  md5 : List UInt8 → Vector UInt8 16
  /-- `hmac::Hmac<Md5>`, keyed by its first argument. -/
  hmacMd5 : List UInt8 → List UInt8 → Vector UInt8 16
  /-- `Aes128::encrypt_block`, keyed by its first argument. -/
  aesEncrypt : Vector UInt8 16 → Vector UInt8 16 → Vector UInt8 16
  /-- `Aes128::decrypt_block`, keyed by its first argument. -/
  aesDecrypt : Vector UInt8 16 → Vector UInt8 16 → Vector UInt8 16
  /-- `base64::engine::general_purpose::STANDARD.encode`. -/
  base64 : List UInt8 → List UInt8
  /-- The ChaCha20 keystream byte for a key and a nonce at a position. -/
  chacha20 : List UInt8 → List UInt8 → Nat → UInt8

/-- Decryption undoes encryption under the same key. -/
def Primitives.AesInverts (P : Primitives) : Prop :=
  ∀ key block, P.aesDecrypt key (P.aesEncrypt key block) = block

/-- The functions the crates implement. -/
def Primitives.standard : Primitives where
  md5 := Digest.md5
  hmacMd5 := Digest.hmacMd5
  aesEncrypt := Aes.encrypt
  aesDecrypt := Aes.decrypt
  base64 := Digest.base64
  chacha20 := Digest.chacha20

theorem Primitives.standard_aesInverts : Primitives.standard.AesInverts := Aes.decrypt_encrypt

variable (P : Primitives)

/-- The loop of `evp_bytes_to_key`: `key` so far and the digest before it. -/
def evpLoop (password : List UInt8) (keyLen : Nat) (key prev : List UInt8) : List UInt8 :=
  if key.length < keyLen then
    let digest := (P.md5 (prev ++ password)).toList
    evpLoop password keyLen (key ++ digest) digest
  else key.take keyLen
termination_by keyLen - key.length
decreasing_by
  simp only [List.length_append, Vector.length_toList]
  omega

def evpBytesToKey (password : List UInt8) (keyLen : Nat) : List UInt8 :=
  evpLoop P password keyLen [] []

theorem length_evpLoop (password : List UInt8) (keyLen : Nat) (key prev : List UInt8) :
    (evpLoop P password keyLen key prev).length = keyLen := by
  induction key, prev using evpLoop.induct P password keyLen with
  | case1 key prev h digest ih =>
      rw [evpLoop, if_pos h]
      exact ih
  | case2 key prev h =>
      rw [evpLoop, if_neg h, List.length_take]
      omega

@[simp] theorem length_evpBytesToKey (password : List UInt8) (keyLen : Nat) :
    (evpBytesToKey P password keyLen).length = keyLen :=
  length_evpLoop P password keyLen [] []

/-- First `n` bytes of the HMAC, as the source slices them. -/
def hmacMd5Prefix {m : Type → Type} [Monad m] [MonadPanic m] (key data : List UInt8) (n : Nat) :
    m (List UInt8) :=
  slice (P.hmacMd5 key data).toList 0 n

/-- First `n` bytes of the HMAC. -/
def mac (key data : List UInt8) (n : Nat) : List UInt8 := (P.hmacMd5 key data).toList.take n

theorem hmacMd5Prefix_of_le {m : Type → Type} [Monad m] [MonadPanic m] (key data : List UInt8)
    {n : Nat} (h : n ≤ 16) :
    (hmacMd5Prefix P key data n : m (List UInt8)) = pure (mac P key data n) := by
  rw [hmacMd5Prefix, slice_of_le (Nat.zero_le n) (by simpa using h)]
  rfl

theorem length_mac (key data : List UInt8) {n : Nat} (h : n ≤ 16) :
    (mac P key data n).length = n := by
  simp only [mac, List.length_take, Vector.length_toList]
  omega

/-- `password.as_bytes()`. -/
def asBytes (text : String) : List UInt8 := text.toUTF8.toList

end SsrBackend
