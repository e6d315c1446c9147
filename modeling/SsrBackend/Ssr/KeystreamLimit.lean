import SsrBackend.Ssr.SessionDirections

/-!
Sessions whose ChaCha20 keystream ends. The IETF cipher counts its 64-byte blocks
with 32 bits, and `apply_keystream` panics on a request that needs a block beyond
the last one. Here `decrypt` and `encrypt` are written over that cipher; as long as
no request is too long they are the calls of `Session`, where the cipher is total.
Neither the cipher nor the session looks at the position, so a direction panics
as soon as its bytes add up to more than the blocks hold.
-/

namespace SsrBackend

open Call Keystream

variable (P : Primitives)

/-- The blocks of one key and nonce that the crate gives out. -/
def keystreamBlocks : Nat := 2 ^ 32 - 1

/-- The bytes that one direction can process. -/
def keystreamBytes : Nat := 64 * keystreamBlocks

namespace StreamCipher

/-- A request of `n` bytes needs a block that the counter does not reach. -/
def exhausts (c : StreamCipher) (n : Nat) : Prop :=
  match c with
  | rc4 _ => False
  | chacha20 _ _ pos => keystreamBlocks < (pos + n + 63) / 64

instance (c : StreamCipher) (n : Nat) : Decidable (c.exhausts n) :=
  match c with
  | rc4 _ => inferInstanceAs (Decidable False)
  | chacha20 _ _ _ => inferInstanceAs (Decidable (_ < _))

/-- `process` over the cipher with its counter. -/
def processChecked {m : Type → Type} [Monad m] [MonadPanic m] (c : StreamCipher)
    (data : List UInt8) : m (List UInt8 × StreamCipher) :=
  if c.exhausts data.length then MonadPanic.panic else pure (c.process P data)

end StreamCipher

namespace ServerSession

def decryptBodyChecked (cipherBytes : List UInt8) :
    Call CodecError ServerSession (List UInt8) := do
  if cipherBytes = [] then
    return []
  else
    let decryptor ← expect (← get).decryptor
    let (plain, next) ← decryptor.processChecked P cipherBytes
    modify fun s => { s with decryptor := some next }
    onProtocol (AuthAes128Md5.serverPostDecrypt P plain)

/-- `decrypt` over the cipher with its counter. -/
def decryptChecked (raw : List UInt8) : Call CodecError ServerSession (List UInt8) :=
  decryptWith P (decryptBodyChecked P) raw

/-- `encrypt` over the cipher with its counter. -/
def encryptChecked (plaintext : List UInt8) : Call CodecError ServerSession (List UInt8) := do
  match (← get).protocol with
  | none => bail .encryptBeforeHandshake
  | some _ =>
      let body ← onProtocol (AuthAes128Md5.serverPreEncrypt P plaintext)
      let s ← get
      let (out, next) ← s.encryptor.processChecked P body
      modify fun s => { s with encryptor := next }
      if s.sendIvEmitted then
        return out
      else
        modify fun s => { s with sendIvEmitted := true }
        return s.sendIv ++ out

def performChecked : SessionOp → Call CodecError ServerSession (List UInt8)
  | .decrypt raw => decryptChecked P raw
  | .encrypt plaintext => encryptChecked P plaintext

/-- The results of a list of calls over the cipher with its counter. -/
def runChecked : ServerSession → List SessionOp →
    List (Outcome CodecError (List UInt8)) × ServerSession
  | s, [] => ([], s)
  | s, op :: ops =>
      let rest := runChecked ((performChecked P op).run s).2 ops
      (((performChecked P op).run s).1 :: rest.1, rest.2)

variable {P}

section Decrypt

variable {s : ServerSession}

theorem decryptBodyChecked_of_fits {decryptor : StreamCipher} {cipherBytes : List UInt8}
    (hd : s.decryptor = some decryptor) (h : ¬ decryptor.exhausts cipherBytes.length) :
    (decryptBodyChecked P cipherBytes).run s = (decryptBody P cipherBytes).run s := by
  by_cases hempty : cipherBytes = []
  · rw [decryptBodyChecked, decryptBody, if_pos hempty, if_pos hempty]
  · rw [decryptBodyChecked, decryptBody, if_neg hempty, if_neg hempty]
    simp only [Call.run_get_bind, hd, expect_some, pure_bind, StreamCipher.processChecked, if_neg h]

theorem decryptBodyChecked_of_exhausts {decryptor : StreamCipher} {cipherBytes : List UInt8}
    (hd : s.decryptor = some decryptor) (hne : cipherBytes ≠ [])
    (h : decryptor.exhausts cipherBytes.length) :
    ((decryptBodyChecked P cipherBytes).run s).1 = .panic := by
  rw [decryptBodyChecked, if_neg hne]
  simp only [Call.run_get_bind, hd, expect_some, pure_bind, StreamCipher.processChecked, if_pos h]
  rfl

/-- Behind the IV, a call moves the cipher by its bytes, whether it succeeds or not. -/
theorem decryptBody_moves {decryptor : StreamCipher} (hd : s.decryptor = some decryptor)
    (hp : s.protocol.isSome = true) (cipherBytes : List UInt8) :
    ((decryptBody P cipherBytes).run s).2.decryptor = some (decryptor.process P cipherBytes).2 ∧
      ((decryptBody P cipherBytes).run s).2.protocol.isSome = true := by
  obtain ⟨protocol, hp⟩ := Option.isSome_iff_exists.mp hp
  by_cases hempty : cipherBytes = []
  · rw [decryptBody, if_pos hempty, hempty, StreamCipher.process_nil]
    exact ⟨hd, Option.isSome_iff_exists.mpr ⟨protocol, hp⟩⟩
  · rw [decryptBody, if_neg hempty]
    simp only [Call.run_get_bind, hd, expect_some, pure_bind, Call.run_modify_bind, onProtocol, hp]
    exact ⟨trivial, rfl⟩

end Decrypt

section Encrypt

variable {s : ServerSession} {protocol : AuthAes128Md5} {plaintext : List UInt8}

theorem encryptChecked_of_fits (hp : s.protocol = some protocol)
    (h : ¬ s.encryptor.exhausts
      (packUnits P protocol.userKey protocol.packId (serverUnits plaintext)).flatten.length) :
    (encryptChecked P plaintext).run s = (encrypt P plaintext).run s := by
  simp only [encryptChecked, encrypt, Call.run_get_bind, hp]
  rw [Call.run_bind, Call.run_bind, onProtocol_preEncrypt hp]
  simp only [Call.run_get_bind, StreamCipher.processChecked, if_neg h, pure_bind]
  rfl

theorem encryptChecked_of_exhausts (hp : s.protocol = some protocol)
    (h : s.encryptor.exhausts
      (packUnits P protocol.userKey protocol.packId (serverUnits plaintext)).flatten.length) :
    ((encryptChecked P plaintext).run s).1 = .panic := by
  simp only [encryptChecked, Call.run_get_bind, hp]
  rw [Call.run_bind, onProtocol_preEncrypt hp]
  simp only [Call.run_get_bind, StreamCipher.processChecked, if_pos h]
  rfl

end Encrypt

/-- The bytes of a plaintext on the wire: nine more for each unit. -/
def packedLength (plaintext : List UInt8) : Nat :=
  plaintext.length + 9 * ((plaintext.length - 1) / unitLen + 1)

/-- The bytes given to the `decrypt` calls of a run. -/
def receivedBytes (ops : List SessionOp) : Nat := ((segments ops).map List.length).sum

/-- The packet bytes of the `encrypt` calls of a run. -/
def sentBytes (ops : List SessionOp) : Nat := ((plaintexts ops).map packedLength).sum

end ServerSession

variable {P}

theorem StreamCipher.process_chacha20 (key nonce : List UInt8) (pos : Nat) (data : List UInt8) :
    ((StreamCipher.chacha20 key nonce pos).process P data).2 =
      .chacha20 key nonce (pos + data.length) := by
  have hstate : ∀ n pos, advance (fun pos => (P.chacha20 key nonce pos, pos + 1)) n pos =
      pos + n := by
    intro n
    induction n with
    | zero => exact fun _ => rfl
    | succ n ih =>
        intro pos
        rw [advance, ih]
        omega
  simp only [process, applyKeystream, xorStream_state, hstate]

theorem StreamCipher.exhausts_chacha20 (key nonce : List UInt8) (pos n : Nat) :
    (StreamCipher.chacha20 key nonce pos).exhausts n ↔ keystreamBytes < pos + n := by
  unfold exhausts keystreamBytes keystreamBlocks
  omega

namespace ServerSession

/-- A ChaCha20 session that has been given `wire` bytes and has sent `sent` packet bytes. -/
structure Counted (P : Primitives) (s : ServerSession) (wire sent : Nat) : Prop where
  sound : s.Sound P
  cipher_eq : s.cipher = .chacha20Ietf
  receive : (wire < 12 ∧ s.decryptor = none ∧ s.recvIvBuf.length = wire) ∨
    (12 ≤ wire ∧ (∃ key nonce, s.decryptor = some (.chacha20 key nonce (wire - 12))) ∧
      s.protocol.isSome = true)
  send : ∃ key nonce, s.encryptor = .chacha20 key nonce sent
  received_le : wire ≤ 12 + keystreamBytes
  sent_le : sent ≤ keystreamBytes

theorem Fresh.counted {s : ServerSession} (hs : s.Fresh P) (hcipher : s.cipher = .chacha20Ietf) :
    s.Counted P 0 0 := by
  refine ⟨hs.sound, hcipher, Or.inl ⟨by omega, hs.decryptor_none, ?_⟩, ?_, by omega, by omega⟩
  · rw [hs.recvIvBuf_nil]
    rfl
  · refine ⟨s.masterKey, s.sendIv, ?_⟩
    rw [hs.encryptor_eq, hcipher]
    rfl

section Counted

variable {s : ServerSession} {wire sent : Nat}

theorem Counted.stream_eq (h : s.Counted P wire sent) (iv : List UInt8) :
    s.cipher.stream P s.masterKey iv = .chacha20 s.masterKey iv 0 := by
  rw [h.cipher_eq]
  rfl

theorem Counted.ivLen_eq (h : s.Counted P wire sent) : s.cipher.ivLen = 12 := by
  rw [h.cipher_eq]
  rfl

/-- A request that fits is answered as by the total cipher. -/
theorem Counted.decrypt_same (h : s.Counted P wire sent) {raw : List UInt8}
    (hle : wire + raw.length ≤ 12 + keystreamBytes) :
    (decryptChecked P raw).run s = (decrypt P raw).run s := by
  have hiv := h.ivLen_eq
  rcases h.receive with ⟨hwire, hd, hbuf⟩ | ⟨hwire, ⟨key, nonce, hd⟩, -⟩
  · by_cases hshort : (s.recvIvBuf ++ raw).length < s.cipher.ivLen
    · rw [decrypt_of_short hd hshort]
      exact decryptWith_of_short _ hd hshort
    · have hlong : s.cipher.ivLen ≤ (s.recvIvBuf ++ raw).length := Nat.le_of_not_lt hshort
      rw [decryptChecked, decryptWith_of_open _ h.sound.masterKey_length hd hlong,
        decrypt_of_open h.sound.masterKey_length hd hlong, h.stream_eq]
      apply decryptBodyChecked_of_fits rfl
      rw [StreamCipher.exhausts_chacha20, List.length_drop, List.length_append]
      omega
  · rw [decryptChecked, decryptWith_of_some _ hd, decrypt_of_some hd]
    apply decryptBodyChecked_of_fits hd
    rw [StreamCipher.exhausts_chacha20]
    omega

/-- A call moves the receive side by its bytes, whether it succeeds or not. -/
theorem Counted.decrypt_moves (h : s.Counted P wire sent) (raw : List UInt8) :
    (wire + raw.length < 12 ∧ ((decrypt P raw).run s).2.decryptor = none ∧
        ((decrypt P raw).run s).2.recvIvBuf.length = wire + raw.length) ∨
      (12 ≤ wire + raw.length ∧ (∃ key nonce, ((decrypt P raw).run s).2.decryptor =
          some (.chacha20 key nonce (wire + raw.length - 12))) ∧
        ((decrypt P raw).run s).2.protocol.isSome = true) := by
  have hiv := h.ivLen_eq
  rcases h.receive with ⟨hwire, hd, hbuf⟩ | ⟨hwire, ⟨key, nonce, hd⟩, hp⟩
  · have hlen : (s.recvIvBuf ++ raw).length = wire + raw.length := by
      rw [List.length_append, hbuf]
    by_cases hshort : (s.recvIvBuf ++ raw).length < s.cipher.ivLen
    · left
      rw [decrypt_of_short hd hshort]
      exact ⟨by omega, hd, hlen⟩
    · right
      have hmoves := decryptBody_moves (P := P) (s := s.opened (.chacha20 s.masterKey
        ((s.recvIvBuf ++ raw).take s.cipher.ivLen) 0) (AuthAes128Md5.ofPhase P
        (s.params (s.recvIvBuf ++ raw)) .header [] 1)) rfl rfl
        ((s.recvIvBuf ++ raw).drop s.cipher.ivLen)
      rw [StreamCipher.process_chacha20, List.length_drop, hlen, Nat.zero_add] at hmoves
      rw [decrypt_of_open h.sound.masterKey_length hd (Nat.le_of_not_lt hshort), h.stream_eq]
      rw [hiv] at hmoves ⊢
      exact ⟨by omega, ⟨_, _, hmoves.1⟩, hmoves.2⟩
  · right
    have hmoves := decryptBody_moves (P := P) hd hp raw
    rw [StreamCipher.process_chacha20] at hmoves
    rw [decrypt_of_some hd]
    refine ⟨by omega, ⟨key, nonce, ?_⟩, hmoves.2⟩
    rw [hmoves.1, show wire - 12 + raw.length = wire + raw.length - 12 by omega]

theorem Counted.decrypt_fits (h : s.Counted P wire sent) {raw : List UInt8}
    (hle : wire + raw.length ≤ 12 + keystreamBytes) :
    ((decryptChecked P raw).run s).1 ≠ .panic ∧
      ((decryptChecked P raw).run s).2.Counted P (wire + raw.length) sent := by
  have hsound := decrypt_keeps_sound h.sound raw
  have hmoves := h.decrypt_moves raw
  rw [h.decrypt_same hle]
  obtain ⟨recvIvBuf, decryptor, protocol, hframe⟩ :=
    decrypt_frame (P := P) h.sound.masterKey_length raw
  refine ⟨hsound.1, hsound.2, ?_, hmoves, ?_, hle, h.sent_le⟩
  · rw [hframe]
    exact h.cipher_eq
  · rw [hframe]
    exact h.send

/-- The call that goes beyond the last block panics. -/
theorem Counted.decrypt_exhausts (h : s.Counted P wire sent) {raw : List UInt8}
    (hlong : 12 + keystreamBytes < wire + raw.length) :
    ((decryptChecked P raw).run s).1 = .panic := by
  have hiv := h.ivLen_eq
  have hle := h.received_le
  rcases h.receive with ⟨hwire, hd, hbuf⟩ | ⟨hwire, ⟨key, nonce, hd⟩, -⟩
  · have hlen : (s.recvIvBuf ++ raw).length = wire + raw.length := by
      rw [List.length_append, hbuf]
    rw [decryptChecked, decryptWith_of_open _ h.sound.masterKey_length hd (by omega)]
    apply decryptBodyChecked_of_exhausts rfl
    · intro hnil
      have hzero := congrArg List.length hnil
      rw [List.length_drop, hlen, List.length_nil] at hzero
      omega
    · rw [h.stream_eq, StreamCipher.exhausts_chacha20, List.length_drop]
      omega
  · rw [decryptChecked, decryptWith_of_some _ hd]
    apply decryptBodyChecked_of_exhausts hd
    · intro hnil
      rw [hnil, List.length_nil] at hlong
      omega
    · rw [StreamCipher.exhausts_chacha20]
      omega

theorem Counted.protocol (h : s.Counted P wire sent) (hwire : 12 ≤ wire) :
    ∃ protocol, s.protocol = some protocol := by
  cases h.receive with
  | inl hshort => omega
  | inr hopen => exact Option.isSome_iff_exists.mp hopen.2.2

theorem Counted.encrypt_fits (h : s.Counted P wire sent) (hwire : 12 ≤ wire)
    {plaintext : List UInt8} (hle : sent + packedLength plaintext ≤ keystreamBytes) :
    ((encryptChecked P plaintext).run s).1 ≠ .panic ∧
      ((encryptChecked P plaintext).run s).2.Counted P wire (sent + packedLength plaintext) := by
  obtain ⟨protocol, hp⟩ := h.protocol hwire
  obtain ⟨key, nonce, henc⟩ := h.send
  have hlen := length_serverUnits P protocol.userKey protocol.packId plaintext
  have hfits : ¬ s.encryptor.exhausts
      (packUnits P protocol.userKey protocol.packId (serverUnits plaintext)).flatten.length := by
    rw [hlen, henc, StreamCipher.exhausts_chacha20, ← packedLength]
    omega
  have hsound := encrypt_keeps_sound h.sound plaintext
  rw [encryptChecked_of_fits hp hfits]
  refine ⟨hsound.1, hsound.2, ?_, ?_, ?_, h.received_le, hle⟩
  · rw [encrypt_of_protocol hp]
    exact h.cipher_eq
  · right
    rw [encrypt_of_protocol hp]
    cases h.receive with
    | inl hshort => omega
    | inr hopen => exact ⟨hwire, hopen.2.1, rfl⟩
  · refine ⟨key, nonce, ?_⟩
    rw [encrypt_of_protocol hp]
    change (s.sealed P protocol plaintext).2 = _
    rw [sealed, henc, StreamCipher.process_chacha20, hlen, packedLength]

theorem Counted.encrypt_exhausts (h : s.Counted P wire sent) (hwire : 12 ≤ wire)
    {plaintext : List UInt8} (hlong : keystreamBytes < sent + packedLength plaintext) :
    ((encryptChecked P plaintext).run s).1 = .panic := by
  obtain ⟨protocol, hp⟩ := h.protocol hwire
  obtain ⟨key, nonce, henc⟩ := h.send
  apply encryptChecked_of_exhausts hp
  rw [length_serverUnits, henc, StreamCipher.exhausts_chacha20, ← packedLength]
  exact hlong

/-- Behind the IV, a run panics exactly when the bytes of one direction do not fit. -/
theorem Counted.runChecked_iff (h : s.Counted P wire sent) (hwire : 12 ≤ wire)
    (ops : List SessionOp) :
    (∀ result ∈ (runChecked P s ops).1, result ≠ .panic) ↔
      wire + receivedBytes ops ≤ 12 + keystreamBytes ∧ sent + sentBytes ops ≤ keystreamBytes := by
  induction ops generalizing s wire sent with
  | nil =>
      have hreceived := h.received_le
      have hsent := h.sent_le
      simp only [runChecked, receivedBytes, sentBytes, segments, plaintexts]
      exact ⟨fun _ => ⟨hreceived, hsent⟩, fun _ _ hmem => by cases hmem⟩
  | cons op ops ih =>
      have hcons : (∀ result ∈ (runChecked P s (op :: ops)).1, result ≠ .panic) ↔
          ((performChecked P op).run s).1 ≠ .panic ∧
            ∀ result ∈ (runChecked P ((performChecked P op).run s).2 ops).1, result ≠ .panic :=
        List.forall_mem_cons
      rw [hcons]
      cases op with
      | decrypt raw =>
          have hsum : receivedBytes (.decrypt raw :: ops) = raw.length + receivedBytes ops := rfl
          have hsame : sentBytes (.decrypt raw :: ops) = sentBytes ops := rfl
          rw [hsum, hsame]
          rcases Nat.lt_or_ge (12 + keystreamBytes) (wire + raw.length) with hlong | hfits
          · refine ⟨fun hok => absurd (h.decrypt_exhausts hlong) hok.1, ?_⟩
            rintro ⟨hreceived, -⟩
            omega
          · obtain ⟨hok, hnext⟩ := h.decrypt_fits hfits
            have hrest := ih hnext (by omega)
            rw [Nat.add_assoc] at hrest
            exact ⟨fun hall => hrest.mp hall.2, fun hle => ⟨hok, hrest.mpr hle⟩⟩
      | encrypt plaintext =>
          have hsum : sentBytes (.encrypt plaintext :: ops) =
            packedLength plaintext + sentBytes ops := rfl
          have hsame : receivedBytes (.encrypt plaintext :: ops) = receivedBytes ops := rfl
          rw [hsum, hsame]
          rcases Nat.lt_or_ge keystreamBytes (sent + packedLength plaintext) with hlong | hfits
          · refine ⟨fun hok => absurd (h.encrypt_exhausts hwire hlong) hok.1, ?_⟩
            rintro ⟨-, hsent⟩
            omega
          · obtain ⟨hok, hnext⟩ := h.encrypt_fits hwire hfits
            have hrest := ih hnext hwire
            rw [Nat.add_assoc] at hrest
            exact ⟨fun hall => hrest.mp hall.2, fun hle => ⟨hok, hrest.mpr hle⟩⟩

/-- The reads of a handshake, while no call panics. -/
theorem Counted.handshake (h : s.Counted P wire sent) {chunks : List (List UInt8)}
    (hok : ∀ result ∈ (runChecked P s (chunks.map .decrypt)).1, result ≠ .panic) :
    (runChecked P s (chunks.map .decrypt)).2.Counted P (wire + chunks.flatten.length) sent := by
  induction chunks generalizing s wire with
  | nil => exact h
  | cons raw chunks ih =>
      have hfits : wire + raw.length ≤ 12 + keystreamBytes := by
        by_contra hlong
        exact hok _ List.mem_cons_self (h.decrypt_exhausts (by omega))
      have hnext := ih (h.decrypt_fits hfits).2
        fun result hmem => hok result (List.mem_cons_of_mem _ hmem)
      rw [Nat.add_assoc] at hnext
      rw [List.flatten_cons, List.length_append]
      exact hnext

/-- A session whose header is accepted is open. -/
theorem Counted.open (h : s.Counted P wire sent) {protocol : AuthAes128Md5}
    (haccepted : s.Accepted protocol) : 12 ≤ wire := by
  cases h.receive with
  | inr hopen => exact hopen.1
  | inl hshort =>
      have hopened := haccepted.opened
      rw [hshort.2.1] at hopened
      cases hopened

end Counted

/-- After a handshake in `chunks`, no call of a ChaCha20 session panics exactly as long as
the bytes of each direction fit into its keystream. -/
theorem long_session_panics_iff {s : ServerSession} (hs : s.Fresh P)
    (hcipher : s.cipher = .chacha20Ietf) (chunks : List (List UInt8)) {protocol : AuthAes128Md5}
    (hok : ∀ result ∈ (runChecked P s (chunks.map .decrypt)).1, result ≠ .panic)
    (haccepted : (runChecked P s (chunks.map .decrypt)).2.Accepted protocol)
    (ops : List SessionOp) :
    (∀ result ∈ (runChecked P (runChecked P s (chunks.map .decrypt)).2 ops).1, result ≠ .panic) ↔
      chunks.flatten.length - 12 + receivedBytes ops ≤ 64 * (2 ^ 32 - 1) ∧
        sentBytes ops ≤ 64 * (2 ^ 32 - 1) := by
  have hcounted := (hs.counted hcipher).handshake hok
  rw [Nat.zero_add] at hcounted
  have hopen := hcounted.open haccepted
  have hbytes : keystreamBytes = 64 * (2 ^ 32 - 1) := rfl
  rw [hcounted.runChecked_iff hopen, hbytes, Nat.zero_add]
  exact and_congr_left' (by omega)

section Sample

/-- A ChaCha20 session as the tests make one. -/
def chachaSession : ServerSession :=
  start .standard .chacha20Ietf (List.replicate 32 0) ∅ 0 (List.replicate 12 0)

/-- The first bytes of a client of that session. -/
def chachaHello : List UInt8 :=
  (ClientCodec.new .standard .chacha20Ietf (List.replicate 32 0) (List.replicate 32 0)
    (List.replicate 12 0x42)).wire .standard (ClientCodec.testHello 0) [10] []

theorem chachaSession_fresh : chachaSession.Fresh .standard := fresh_start ∅ 0 rfl rfl

theorem length_chachaHello : chachaHello.length = 48 := by
  rw [chachaHello, ClientCodec.wire_new, List.length_append, StreamCipher.length_process,
    List.length_append, ClientCodec.packAuth, List.length_append, ClientCodec.length_authBody,
    length_mac _ _ _ (by omega)]
  rfl

theorem chachaSession_decoded : chachaSession.decoded .standard chachaHello =
    .ok ([10], .stream ⟨List.replicate 32 0, none⟩ 1, []) := by
  have hsel : (Params.mk chachaSession.masterKey (List.replicate 12 0x42) chachaSession.users
      chachaSession.isMultiUser).select ⟨chachaSession.masterKey, none⟩
      (ClientCodec.testHello 0).uid.toNat = ⟨List.replicate 32 0, none⟩ := by
    simp [Params.select, chachaSession, start]
  have h := ClientCodec.decoded_wire chachaSession (ClientCodec.testHello 0) (List.replicate 32 0)
    (List.replicate 12 0x42) [10] [] Primitives.standard_aesInverts rfl
    (congrArg Identity.userKey hsel) (by decide) (by rintro _ ⟨⟩)
  rw [hsel] at h
  exact h

/-- The handshake of the sample succeeds, over the cipher with its counter. -/
theorem chachaSession_handshake :
    (∀ result ∈ (runChecked .standard chachaSession ([chachaHello].map .decrypt)).1,
      result ≠ .panic) ∧
    ∃ protocol, (runChecked .standard chachaSession ([chachaHello].map .decrypt)).2.Accepted
      protocol := by
  have hcounted := chachaSession_fresh.counted rfl
  have hfits : 0 + chachaHello.length ≤ 12 + keystreamBytes := by
    rw [length_chachaHello]
    decide
  have hstep := decrypt_took chachaSession_fresh.took chachaHello
  rw [List.nil_append, chachaSession_decoded] at hstep
  obtain ⟨out, -, -, htook⟩ := hstep
  refine ⟨?_, ?_⟩
  · intro result hmem
    rw [List.mem_singleton.mp hmem]
    exact (hcounted.decrypt_fits hfits).1
  · obtain ⟨protocol, haccepted⟩ := htook.accepted rfl
    rw [← hcounted.decrypt_same hfits] at haccepted
    exact ⟨protocol, haccepted⟩

theorem long_session_panics_iff_first_reply :
    chachaSession.Fresh .standard ∧ chachaSession.cipher = .chacha20Ietf ∧
      ∀ result ∈ (runChecked .standard
        (runChecked .standard chachaSession ([chachaHello].map .decrypt)).2 [.encrypt [1]]).1,
        result ≠ .panic := by
  obtain ⟨hok, protocol, haccepted⟩ := chachaSession_handshake
  refine ⟨chachaSession_fresh, rfl, ?_⟩
  apply (long_session_panics_iff chachaSession_fresh rfl [chachaHello] hok haccepted
    [.encrypt [1]]).mpr
  rw [List.flatten_singleton, length_chachaHello]
  decide

theorem sentBytes_replicate (n : Nat) (plaintext : List UInt8) :
    sentBytes (List.replicate n (.encrypt plaintext)) = n * packedLength plaintext := by
  induction n with
  | zero => rw [Nat.zero_mul]; rfl
  | succ n ih =>
      have hsum : sentBytes (.encrypt plaintext :: List.replicate n (.encrypt plaintext)) =
        packedLength plaintext + sentBytes (List.replicate n (.encrypt plaintext)) := rfl
      rw [List.replicate_succ, hsum, ih, Nat.succ_mul, Nat.add_comm]

/-- 256 GiB to one client, in reads of 16 KiB, after a valid handshake. -/
theorem long_download_panics :
    chachaSession.Fresh .standard ∧
    (∃ protocol, (runChecked .standard chachaSession ([chachaHello].map .decrypt)).2.Accepted
      protocol) ∧
    .panic ∈ (runChecked .standard
      (runChecked .standard chachaSession ([chachaHello].map .decrypt)).2
      (List.replicate (2 ^ 24) (.encrypt (List.replicate (16 * 1024) 0)))).1 := by
  obtain ⟨hok, protocol, haccepted⟩ := chachaSession_handshake
  refine ⟨chachaSession_fresh, ⟨protocol, haccepted⟩, ?_⟩
  have hcounted := (chachaSession_fresh.counted rfl).handshake hok
  have hiff := hcounted.runChecked_iff (hcounted.open haccepted)
    (List.replicate (2 ^ 24) (.encrypt (List.replicate (16 * 1024) 0)))
  by_contra hnone
  have hle := (hiff.mp fun result hmem hpanic => hnone (hpanic ▸ hmem)).2
  rw [sentBytes_replicate, packedLength, List.length_replicate] at hle
  unfold keystreamBytes keystreamBlocks unitLen at hle
  omega

end Sample

end ServerSession

end SsrBackend
