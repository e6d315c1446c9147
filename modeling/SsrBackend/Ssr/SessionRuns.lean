import SsrBackend.Ssr.Address
import SsrBackend.Ssr.SessionDecoding
import SsrBackend.Ssr.UdpPacket

/-!
Runs of a session in which `decrypt` and `encrypt` calls are mixed. A session is
sound when it has taken in some wire bytes or is stuck; every call keeps it
sound, and no call on a sound session panics.
-/

namespace SsrBackend

open Resumable

variable {P : Primitives}

/-- A call on a session. -/
inductive SessionOp where
  | decrypt (raw : List UInt8)
  | encrypt (plaintext : List UInt8)

namespace ServerSession

def perform (P : Primitives) : SessionOp → Call CodecError ServerSession (List UInt8)
  | .decrypt raw => decrypt P raw
  | .encrypt plaintext => encrypt P plaintext

/-- The results of a list of calls, each made whatever the one before returned. -/
def runOps (P : Primitives) : ServerSession → List SessionOp →
    List (Outcome CodecError (List UInt8)) × ServerSession
  | s, [] => ([], s)
  | s, op :: ops =>
      let rest := runOps P ((perform P op).run s).2 ops
      (((perform P op).run s).1 :: rest.1, rest.2)

/-- The wire bytes of an `encrypt` call. -/
def sealed (P : Primitives) (s : ServerSession) (protocol : AuthAes128Md5)
    (plaintext : List UInt8) : List UInt8 × StreamCipher :=
  s.encryptor.process P
    (packUnits P protocol.userKey protocol.packId (serverUnits plaintext)).flatten

theorem onProtocol_preEncrypt {s : ServerSession} {protocol : AuthAes128Md5}
    (h : s.protocol = some protocol) (plaintext : List UInt8) :
    (onProtocol (AuthAes128Md5.serverPreEncrypt P plaintext)).run s =
      (.ok (packUnits P protocol.userKey protocol.packId (serverUnits plaintext)).flatten,
        { s with protocol := some { protocol with
          packId := protocol.packId + UInt32.ofNat (serverUnits plaintext).length } }) := by
  have hpre := AuthAes128Md5.serverPreEncrypt_spec P protocol plaintext
  simp only [onProtocol, h, hpre]

theorem encrypt_of_protocol {s : ServerSession} {protocol : AuthAes128Md5}
    (h : s.protocol = some protocol) (plaintext : List UInt8) :
    (encrypt P plaintext).run s =
      (.ok ((if s.sendIvEmitted then [] else s.sendIv) ++ (s.sealed P protocol plaintext).1),
        { s with
          protocol := some { protocol with
            packId := protocol.packId + UInt32.ofNat (serverUnits plaintext).length }
          encryptor := (s.sealed P protocol plaintext).2
          sendIvEmitted := true }) := by
  simp only [encrypt, Call.run_get_bind, h]
  rw [Call.run_bind, onProtocol_preEncrypt h]
  simp only [Call.run_get_bind, Call.run_modify_bind]
  cases hs : s.sendIvEmitted with
  | true => rfl
  | false => rfl

theorem encrypt_of_none {s : ServerSession} (h : s.protocol = none) (plaintext : List UInt8) :
    (encrypt P plaintext).run s = (.err .encryptBeforeHandshake, s) := by
  simp only [encrypt, Call.run_get_bind, h, Call.run_bail]

theorem received_received (s : ServerSession) (wire wire' : List UInt8) (packId packId' : UInt32)
    (r r' : Drained UInt8 UInt8 Phase) :
    (s.received P wire packId r).received P wire' packId' r' = s.received P wire' packId' r' := by
  unfold received
  by_cases h : wire.length < s.cipher.ivLen
  · rw [if_pos h]
    rfl
  · rw [if_neg h]
    rfl

theorem received_cipher (s : ServerSession) (wire : List UInt8) (packId : UInt32)
    (r : Drained UInt8 UInt8 Phase) : (s.received P wire packId r).cipher = s.cipher := by
  unfold received
  by_cases h : wire.length < s.cipher.ivLen
  · rw [if_pos h]
  · rw [if_neg h]
    rfl

/-- What a session is made with; no call changes it. -/
def settings (s : ServerSession) : CipherKind × List UInt8 × Users × Int :=
  (s.cipher, s.masterKey, s.users, s.isMultiUser)

theorem decoded_settings {s t : ServerSession} (h : t.settings = s.settings)
    (wire : List UInt8) : t.decoded P wire = s.decoded P wire := by
  simp only [settings, Prod.mk.injEq] at h
  obtain ⟨hcipher, hkey, husers, hmulti⟩ := h
  simp only [decoded, params, plain, hcipher, hkey, husers, hmulti]

/-- The receive side has taken in `wire`, which decodes to `r`. -/
structure Took (P : Primitives) (s : ServerSession) (wire : List UInt8)
    (r : Drained UInt8 UInt8 Phase) : Prop where
  masterKey_length : s.masterKey.length = s.cipher.keyLen
  decoded_eq : s.decoded P wire = .ok r
  state_eq : ∃ packId, (wire.length < s.cipher.ivLen → packId = 1) ∧
    s = s.received P wire packId r

theorem Fresh.took {s : ServerSession} (h : s.Fresh P) : s.Took P [] ([], .header, []) :=
  ⟨h.masterKey_length, s.decoded_nil, 1, fun _ => rfl, (h.received_nil _).symm⟩

theorem decryptBody_frame (s : ServerSession) (cipherBytes : List UInt8) :
    ∃ decryptor protocol, ((decryptBody P cipherBytes).run s).2 =
      { s with decryptor := decryptor, protocol := protocol } := by
  by_cases hempty : cipherBytes = []
  · rw [decryptBody, if_pos hempty]
    exact ⟨s.decryptor, s.protocol, rfl⟩
  · rw [decryptBody, if_neg hempty]
    simp only [Call.run_get_bind]
    cases hd : s.decryptor with
    | none => exact ⟨s.decryptor, s.protocol, rfl⟩
    | some decryptor =>
        simp only [expect_some, pure_bind, Call.run_modify_bind, onProtocol]
        cases s.protocol with
        | none => exact ⟨_, _, rfl⟩
        | some protocol => exact ⟨_, _, rfl⟩

/-- `decrypt` changes the receive side alone. -/
theorem decrypt_frame {s : ServerSession} (hkey : s.masterKey.length = s.cipher.keyLen)
    (raw : List UInt8) :
    ∃ recvIvBuf decryptor protocol, ((decrypt P raw).run s).2 =
      { s with recvIvBuf := recvIvBuf, decryptor := decryptor, protocol := protocol } := by
  cases hd : s.decryptor with
  | some decryptor =>
      obtain ⟨d, p, h⟩ := decryptBody_frame (P := P) s raw
      rw [decrypt_of_some hd]
      exact ⟨s.recvIvBuf, d, p, h⟩
  | none =>
      by_cases hlen : (s.recvIvBuf ++ raw).length < s.cipher.ivLen
      · rw [decrypt_of_short hd hlen]
        exact ⟨_, s.decryptor, s.protocol, rfl⟩
      · rw [decrypt_of_open hkey hd (Nat.le_of_not_lt hlen)]
        obtain ⟨d, p, h⟩ := decryptBody_frame (P := P) _ ((s.recvIvBuf ++ raw).drop s.cipher.ivLen)
        exact ⟨_, d, p, h⟩

theorem decrypt_settings {s : ServerSession} (hkey : s.masterKey.length = s.cipher.keyLen)
    (raw : List UInt8) : ((decrypt P raw).run s).2.settings = s.settings := by
  obtain ⟨_, _, _, hframe⟩ := decrypt_frame (P := P) hkey raw
  rw [hframe]
  rfl

/-- A `decrypt` call takes in its bytes, or leaves a session that is stuck. -/
theorem decrypt_took {s : ServerSession} {wire : List UInt8} {r : Drained UInt8 UInt8 Phase}
    (h : s.Took P wire r) (raw : List UInt8) :
    match s.decoded P (wire ++ raw) with
    | .ok r' => ∃ out, r'.1 = r.1 ++ out ∧ ((decrypt P raw).run s).1 = .ok out ∧
        ((decrypt P raw).run s).2.Took P (wire ++ raw) r'
    | .error e => ((decrypt P raw).run s).1 = .err e ∧ ((decrypt P raw).run s).2.Stuck P := by
  obtain ⟨packId, hpack, hstate⟩ := h.state_eq
  have hstep := decrypt_received h.masterKey_length hpack h.decoded_eq raw
  rw [← hstate] at hstep
  cases hd : s.decoded P (wire ++ raw) with
  | error e =>
      rw [hd] at hstep
      exact hstep
  | ok r' =>
      rw [hd] at hstep
      obtain ⟨out, hout, hcall⟩ := hstep
      have hset := decrypt_settings (P := P) h.masterKey_length raw
      refine ⟨out, hout, congrArg Prod.fst hcall, ?_, ?_, packId, ?_, ?_⟩
      · rw [hcall]
        unfold received
        split
        · exact h.masterKey_length
        · exact h.masterKey_length
      · rw [decoded_settings hset]
        exact hd
      · intro hshort
        rw [hcall, received_cipher, List.length_append] at hshort
        exact hpack (by omega)
      · rw [hcall, received_received]

theorem encrypt_settings (s : ServerSession) (plaintext : List UInt8) :
    ((encrypt P plaintext).run s).2.settings = s.settings := by
  cases hp : s.protocol with
  | none =>
      rw [encrypt_of_none hp]
  | some protocol =>
      rw [encrypt_of_protocol hp]
      rfl

/-- An `encrypt` call does not reach the receive side. -/
theorem encrypt_took {s : ServerSession} {wire : List UInt8} {r : Drained UInt8 UInt8 Phase}
    (h : s.Took P wire r) (plaintext : List UInt8) :
    ((encrypt P plaintext).run s).2.Took P wire r := by
  cases hp : s.protocol with
  | none =>
      rw [encrypt_of_none hp]
      exact h
  | some protocol =>
      have hset := encrypt_settings (P := P) s plaintext
      rw [encrypt_of_protocol hp] at hset ⊢
      obtain ⟨packId, -, hstate⟩ := h.state_eq
      have hlong : ¬ wire.length < s.cipher.ivLen := by
        intro hshort
        rw [hstate, received, if_pos hshort] at hp
        cases hp
      refine ⟨h.masterKey_length, ?_, packId + UInt32.ofNat (serverUnits plaintext).length, ?_, ?_⟩
      · rw [decoded_settings hset]
        exact h.decoded_eq
      · intro hshort
        exact absurd hshort hlong
      · rw [received, if_neg hlong] at hstate
        have hbuf : s.recvIvBuf = [] := congrArg ServerSession.recvIvBuf hstate
        have hopen : s.decryptor = some (s.plain P wire).2 :=
          congrArg ServerSession.decryptor hstate
        have hprot : protocol = AuthAes128Md5.ofPhase P (s.params wire) r.2.1 r.2.2 packId :=
          Option.some.inj (hp.symm.trans (congrArg ServerSession.protocol hstate))
        subst hprot
        simp only [received, if_neg hlong, opened, hbuf, hopen]
        rfl

/-- What every call keeps: the key has the cipher's size, and the receive side
has taken in some wire bytes or is stuck. -/
structure Sound (P : Primitives) (s : ServerSession) : Prop where
  masterKey_length : s.masterKey.length = s.cipher.keyLen
  receive : s.Stuck P ∨ ∃ wire r, s.Took P wire r

theorem Fresh.sound {s : ServerSession} (h : s.Fresh P) : s.Sound P :=
  ⟨h.masterKey_length, Or.inr ⟨[], _, h.took⟩⟩

theorem decrypt_keeps_sound {s : ServerSession} (h : s.Sound P) (raw : List UInt8) :
    ((decrypt P raw).run s).1 ≠ .panic ∧ ((decrypt P raw).run s).2.Sound P := by
  have hkey' : ((decrypt P raw).run s).2.masterKey.length =
      ((decrypt P raw).run s).2.cipher.keyLen := by
    obtain ⟨_, _, _, hframe⟩ := decrypt_frame (P := P) h.masterKey_length raw
    rw [hframe]
    exact h.masterKey_length
  rcases h.receive with hstuck | ⟨wire, r, htook⟩
  · rcases decrypt_stuck hstuck raw with ⟨-, hcall⟩ | ⟨e, herr, hnext⟩
    · rw [hcall]
      exact ⟨by simp, h⟩
    · rw [herr]
      exact ⟨by simp, ⟨hkey', Or.inl hnext⟩⟩
  · have hstep := decrypt_took htook raw
    cases hd : s.decoded P (wire ++ raw) with
    | error e =>
        rw [hd] at hstep
        rw [hstep.1]
        exact ⟨by simp, ⟨hkey', Or.inl hstep.2⟩⟩
    | ok r' =>
        rw [hd] at hstep
        obtain ⟨out, -, hout, hnext⟩ := hstep
        rw [hout]
        exact ⟨by simp, ⟨hkey', Or.inr ⟨_, _, hnext⟩⟩⟩

theorem encrypt_keeps_sound {s : ServerSession} (h : s.Sound P) (plaintext : List UInt8) :
    ((encrypt P plaintext).run s).1 ≠ .panic ∧ ((encrypt P plaintext).run s).2.Sound P := by
  cases hp : s.protocol with
  | none =>
      rw [encrypt_of_none hp]
      exact ⟨by simp, h⟩
  | some protocol =>
      refine ⟨by rw [encrypt_of_protocol hp]; simp, ?_⟩
      rcases h.receive with ⟨decryptor, protocol', hd, hp', hstuck⟩ | ⟨wire, r, htook⟩
      · rw [encrypt_of_protocol hp]
        refine ⟨h.masterKey_length, Or.inl ?_⟩
        rw [hp] at hp'
        cases hp'
        exact ⟨decryptor, _, hd, rfl, hstuck⟩
      · have hnext := encrypt_took htook plaintext
        exact ⟨hnext.masterKey_length, Or.inr ⟨wire, r, hnext⟩⟩

/-- No call of a run from a sound session panics, and the run ends in a sound session. -/
theorem runOps_sound {s : ServerSession} (h : s.Sound P) (ops : List SessionOp) :
    (∀ r ∈ (runOps P s ops).1, r ≠ .panic) ∧ (runOps P s ops).2.Sound P := by
  induction ops generalizing s with
  | nil => exact ⟨by simp [runOps], h⟩
  | cons op ops ih =>
      have hstep : ((perform P op).run s).1 ≠ .panic ∧ ((perform P op).run s).2.Sound P := by
        cases op with
        | decrypt raw => exact decrypt_keeps_sound h raw
        | encrypt plaintext => exact encrypt_keeps_sound h plaintext
      obtain ⟨hrest, hend⟩ := ih hstep.2
      refine ⟨?_, hend⟩
      intro r hr
      rcases List.mem_cons.mp hr with rfl | hr
      · exact hstep.1
      · exact hrest r hr

/-- Nothing a client sends makes a codec call panic, and each turn of the packet
loop that goes on leaves a shorter buffer. -/
theorem codec_never_panics {s : ServerSession} (hs : s.Fresh P) (ops : List SessionOp) :
    (∀ r ∈ (runOps P s ops).1, r ≠ .panic) ∧
    (∀ (protocol next : AuthAes128Md5) (payload : List UInt8), 4 < protocol.recvBuf.length →
      (AuthAes128Md5.packetTurn P).run protocol = (.ok (some payload), next) →
      next.recvBuf.length < protocol.recvBuf.length) ∧
    (∀ packet, udpDecryptPacket P s.masterKey s.users s.isMultiUser packet s.cipher ≠ .panic) ∧
    ∀ buf, parse buf ≠ .panic :=
  ⟨(runOps_sound hs.sound ops).1, fun _ _ _ h4 h => AuthAes128Md5.packetTurn_shrinks P h4 h,
    fun packet => udpDecryptPacket_ne_panic P s.users s.isMultiUser packet
      (CipherKind.takes_of_length hs.masterKey_length),
    parse_ne_panic⟩

theorem codec_never_panics_garbage :
    ClientCodec.testSession.Fresh .standard ∧
      ∀ r ∈ (runOps .standard ClientCodec.testSession
        [.decrypt (List.replicate 60 0xff), .encrypt [1], .decrypt [0]]).1, r ≠ .panic :=
  ⟨ClientCodec.testSession_fresh, (codec_never_panics ClientCodec.testSession_fresh _).1⟩

end ServerSession

end SsrBackend
