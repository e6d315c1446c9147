import SsrBackend.Ssr.Rc4

/-!
Stream-cipher selection (`ssr/cipher.rs`). Both ciphers are generators of
keystream bytes: `process` on a concatenation is `process` on its parts, and a
second cipher with the same key and IV undoes the first.
-/

namespace SsrBackend

open Keystream

inductive CipherKind where
  | rc4Md5
  | chacha20Ietf
  deriving DecidableEq, Repr

namespace CipherKind

def keyLen : CipherKind → Nat
  | rc4Md5 => 16
  | chacha20Ietf => 32

def ivLen : CipherKind → Nat
  | rc4Md5 => 16
  | chacha20Ietf => 12

theorem ivLen_pos (kind : CipherKind) : 0 < kind.ivLen := by cases kind <;> decide

end CipherKind

/-- One direction of a connection's cipher. ChaCha20 is its key, its nonce and
the number of keystream bytes already used. -/
inductive StreamCipher where
  | rc4 (c : Rc4)
  | chacha20 (key nonce : List UInt8) (pos : Nat)

variable (P : Primitives)

/-- `new_stream`. The ChaCha20 constructor refuses other lengths, and the
`expect` on it panics. -/
def CipherKind.newStream {m : Type → Type} [Monad m] [MonadPanic m] (kind : CipherKind)
    (masterKey iv : List UInt8) : m StreamCipher :=
  match kind with
  | rc4Md5 => pure (.rc4 (Rc4Md5.new P masterKey iv))
  | chacha20Ietf =>
      expect (if masterKey.length = 32 ∧ iv.length = 12
        then some (.chacha20 masterKey iv 0) else none)

/-- The cipher `newStream` returns on arguments of the right lengths. -/
def CipherKind.stream (kind : CipherKind) (masterKey iv : List UInt8) : StreamCipher :=
  match kind with
  | rc4Md5 => .rc4 (Rc4Md5.new P masterKey iv)
  | chacha20Ietf => .chacha20 masterKey iv 0

/-- The master keys that `newStream` takes. -/
def CipherKind.Takes (kind : CipherKind) (masterKey : List UInt8) : Prop :=
  kind = chacha20Ietf → masterKey.length = 32

theorem CipherKind.takes_of_length {kind : CipherKind} {masterKey : List UInt8}
    (h : masterKey.length = kind.keyLen) : kind.Takes masterKey := by
  rintro rfl
  exact h

theorem CipherKind.newStream_of_takes {m : Type → Type} [Monad m] [MonadPanic m]
    {kind : CipherKind} {masterKey iv : List UInt8} (hkey : kind.Takes masterKey)
    (hiv : iv.length = kind.ivLen) :
    (kind.newStream P masterKey iv : m StreamCipher) =
      pure (kind.stream P masterKey iv) := by
  cases kind with
  | rc4Md5 => rfl
  | chacha20Ietf =>
      have hlen := hkey rfl
      simp only [ivLen] at hiv
      simp [newStream, stream, hlen, hiv]

theorem CipherKind.newStream_of_length {m : Type → Type} [Monad m] [MonadPanic m]
    (kind : CipherKind) {masterKey iv : List UInt8} (hkey : masterKey.length = kind.keyLen)
    (hiv : iv.length = kind.ivLen) :
    (kind.newStream P masterKey iv : m StreamCipher) = pure (kind.stream P masterKey iv) :=
  newStream_of_takes P (takes_of_length hkey) hiv

namespace StreamCipher

/-- The next keystream byte. -/
def next : StreamCipher → UInt8 × StreamCipher
  | rc4 c => (c.next.1, .rc4 c.next.2)
  | chacha20 key nonce pos => (P.chacha20 key nonce pos, .chacha20 key nonce (pos + 1))

/-- `apply_keystream` of the ChaCha20 crate from position `pos` on. -/
def applyKeystream (key nonce : List UInt8) (pos : Nat) (data : List UInt8) :
    List UInt8 × Nat :=
  xorStream (fun pos => (P.chacha20 key nonce pos, pos + 1)) pos data

/-- `process`: the processed data and the cipher behind it. -/
def process (c : StreamCipher) (data : List UInt8) : List UInt8 × StreamCipher :=
  match c with
  | rc4 c => ((c.apply data).1, .rc4 (c.apply data).2)
  | chacha20 key nonce pos =>
      ((applyKeystream P key nonce pos data).1,
        .chacha20 key nonce (applyKeystream P key nonce pos data).2)

theorem process_eq_xorStream (c : StreamCipher) (data : List UInt8) :
    c.process P data = xorStream (next P) c data := by
  induction data generalizing c with
  | nil => cases c <;> rfl
  | cons b rest ih =>
      cases c with
      | rc4 c =>
          have h := ih (.rc4 c.next.2)
          simp only [process, Rc4.apply, xorStream, next] at h ⊢
          rw [← h]
      | chacha20 key nonce pos =>
          have h := ih (.chacha20 key nonce (pos + 1))
          simp only [process, applyKeystream, xorStream, next] at h ⊢
          rw [← h]

theorem process_append (c : StreamCipher) (x y : List UInt8) :
    c.process P (x ++ y) =
      ((c.process P x).1 ++ ((c.process P x).2.process P y).1,
        ((c.process P x).2.process P y).2) := by
  simp only [process_eq_xorStream, xorStream_append]

@[simp] theorem length_process (c : StreamCipher) (data : List UInt8) :
    (c.process P data).1.length = data.length := by
  rw [process_eq_xorStream, length_xorStream]

@[simp] theorem process_nil (c : StreamCipher) : c.process P [] = ([], c) := by
  rw [process_eq_xorStream]
  rfl

/-- A cipher in the same state undoes the processing. -/
theorem process_involutive (c : StreamCipher) (data : List UInt8) :
    c.process P (c.process P data).1 = (data, (c.process P data).2) := by
  simp only [process_eq_xorStream, xorStream_involutive]

end StreamCipher

end SsrBackend
