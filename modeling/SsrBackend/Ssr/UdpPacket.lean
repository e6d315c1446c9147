import SsrBackend.Ssr.Session

/-!
The datagram codec: `udp_server_post_decrypt` and `udp_server_pre_encrypt` of
`ssr/protocol.rs` under the cipher layer of `ssr/mod.rs`. A datagram carries its
IV in front and the uid and a MAC behind; nothing is kept between datagrams.
-/

namespace SsrBackend

variable (P : Primitives)

/-- The key and the user a datagram's uid selects. -/
def udpSelect (masterKey : List UInt8) (users : Users) (isMultiUser : Int)
    (recvIv : List UInt8) (uid : Nat) : Identity :=
  match users[uid]? with
  | some userKey => ⟨userKey, some uid⟩
  | none => if isMultiUser = 0 then ⟨masterKey, none⟩ else ⟨recvIv, none⟩

def udpServerPostDecrypt (masterKey : List UInt8) (users : Users) (isMultiUser : Int)
    (recvIv buf : List UInt8) : Outcome CodecError (List UInt8 × Option Nat) := do
  if buf.length < 8 then
    Outcome.err (.udpTooShort buf.length)
  else
    let uid := leValue [← index buf (← checkedSub buf.length 8),
      ← index buf (← checkedSub buf.length 7), ← index buf (← checkedSub buf.length 6),
      ← index buf (← checkedSub buf.length 5)]
    let who := udpSelect masterKey users isMultiUser recvIv uid
    let body ← slice buf 0 (← checkedSub buf.length 4)
    let expected ← hmacMd5Prefix P who.userKey body 4
    if expected ≠ (← slice buf (← checkedSub buf.length 4) buf.length) then
      Outcome.err .udpHmac
    else
      return (← slice buf 0 (← checkedSub buf.length 8), who.userId)

def userAuthKey (password : String) : List UInt8 := (P.md5 (asBytes password)).toList

def deriveUserAuthKey (password : String) : List UInt8 := userAuthKey P password

def udpServerPreEncrypt {m : Type → Type} [Monad m] [MonadPanic m] (protoKey buf : List UInt8) :
    m (List UInt8) := do
  return buf ++ (← hmacMd5Prefix P protoKey buf 4)

def udpDecryptPacket (masterKey : List UInt8) (users : Users) (isMultiUser : Int)
    (packet : List UInt8) (cipher : CipherKind) :
    Outcome CodecError (List UInt8 × Option Nat) := do
  let ivLen := cipher.ivLen
  if packet.length < ivLen then
    Outcome.err (.udpMissingIv ivLen)
  else
    let iv ← slice packet 0 ivLen
    let body ← slice packet ivLen packet.length
    let stream ← cipher.newStream P masterKey iv
    udpServerPostDecrypt P masterKey users isMultiUser iv (stream.process P body).1

def udpEncryptPacket (masterKey protoKey headerAndPayload : List UInt8) (cipher : CipherKind)
    (getrandom : GetRandom) : Outcome CodecError (List UInt8) := do
  let data ← udpServerPreEncrypt P protoKey headerAndPayload
  match getrandom cipher.ivLen with
  | .error reason => Outcome.err (.randomIv reason)
  | .ok iv =>
      let stream ← cipher.newStream P masterKey iv.toList
      return iv.toList ++ (stream.process P data).1

/-- The uid field of a datagram. -/
def udpUid (buf : List UInt8) : Nat :=
  leValue (window buf (buf.length - 8) (buf.length - 4))

theorem udpServerPostDecrypt_spec (masterKey : List UInt8) (users : Users) (isMultiUser : Int)
    (recvIv buf : List UInt8) :
    udpServerPostDecrypt P masterKey users isMultiUser recvIv buf =
      let who := udpSelect masterKey users isMultiUser recvIv (udpUid buf)
      if buf.length < 8 then .err (.udpTooShort buf.length)
      else if mac P who.userKey (window buf 0 (buf.length - 4)) 4 ≠
          window buf (buf.length - 4) buf.length then .err .udpHmac
      else .ok (window buf 0 (buf.length - 8), who.userId) := by
  by_cases h8 : buf.length < 8
  · simp only [udpServerPostDecrypt, h8, ite_true]
  have c (k : Nat) (hk : k ≤ 8) : (checkedSub buf.length k : Outcome CodecError Nat) =
      .ok (buf.length - k) := checkedSub_of_le (by omega)
  have i (k : Nat) (hk : k < buf.length) :
      (index buf k : Outcome CodecError UInt8) = .ok buf[k] := index_of_lt hk
  have w (lo hi : Nat) (hlo : lo ≤ hi) (hhi : hi ≤ buf.length) :
      (slice buf lo hi : Outcome CodecError _) = .ok (window buf lo hi) := slice_of_le hlo hhi
  have m4 (key data : List UInt8) : (hmacMd5Prefix P key data 4 : Outcome CodecError _) =
      .ok (mac P key data 4) := hmacMd5Prefix_of_le P key data (by omega)
  have huid : leValue [buf[buf.length - 8], buf[buf.length - 7], buf[buf.length - 6],
      buf[buf.length - 5]] = udpUid buf := by
    rw [udpUid, window_cons (by omega) (by omega), window_cons (by omega) (by omega),
      window_cons (by omega) (by omega), window_cons (by omega) (by omega)]
    simp only [show buf.length - 8 + 1 = buf.length - 7 by omega,
      show buf.length - 7 + 1 = buf.length - 6 by omega,
      show buf.length - 6 + 1 = buf.length - 5 by omega,
      show buf.length - 5 + 1 = buf.length - 4 by omega, window_self]
  simp only [udpServerPostDecrypt, h8, ite_false, c 8 (by omega), c 7 (by omega), c 6 (by omega),
    c 5 (by omega), c 4 (by omega), Outcome.ok_bind, i (buf.length - 8) (by omega),
    i (buf.length - 7) (by omega), i (buf.length - 6) (by omega), i (buf.length - 5) (by omega),
    huid, w 0 (buf.length - 4) (by omega) (by omega),
    w (buf.length - 4) buf.length (by omega) (by omega),
    w 0 (buf.length - 8) (by omega) (by omega), m4]
  rfl

theorem udpSelect_userId {masterKey recvIv : List UInt8} {users : Users} {isMultiUser : Int}
    {uid u : Nat} (h : (udpSelect masterKey users isMultiUser recvIv uid).userId = some u) :
    users[u]? = some (udpSelect masterKey users isMultiUser recvIv uid).userKey := by
  rw [udpSelect] at h ⊢
  cases hkey : users[uid]? with
  | some userKey =>
      rw [hkey] at h
      cases h
      exact hkey
  | none =>
      rw [hkey] at h
      dsimp only at h
      split at h <;> cases h

/-- A user id that comes with a payload is one of the table. -/
theorem udpDecryptPacket_mem {masterKey : List UInt8} {users : Users} {isMultiUser : Int}
    {packet payload : List UInt8} {cipher : CipherKind} {u : Nat}
    (h : udpDecryptPacket P masterKey users isMultiUser packet cipher = .ok (payload, some u)) :
    u ∈ users := by
  rw [udpDecryptPacket] at h
  split at h
  · cases h
  obtain ⟨iv, -, h⟩ := Outcome.bind_eq_ok h
  obtain ⟨body, -, h⟩ := Outcome.bind_eq_ok h
  obtain ⟨stream, -, h⟩ := Outcome.bind_eq_ok h
  rw [udpServerPostDecrypt_spec] at h
  dsimp only at h
  split at h
  · cases h
  split at h
  · cases h
  rw [Outcome.ok.injEq, Prod.mk.injEq] at h
  obtain ⟨-, hu⟩ := h
  rw [← Std.HashMap.isSome_getElem?_iff_mem, udpSelect_userId hu]
  rfl

theorem udpDecryptPacket_spec {masterKey : List UInt8} (users : Users) (isMultiUser : Int)
    (packet : List UInt8) {cipher : CipherKind} (hkey : cipher.Takes masterKey) :
    udpDecryptPacket P masterKey users isMultiUser packet cipher =
      if packet.length < cipher.ivLen then .err (.udpMissingIv cipher.ivLen)
      else udpServerPostDecrypt P masterKey users isMultiUser (packet.take cipher.ivLen)
        ((cipher.stream P masterKey (packet.take cipher.ivLen)).process P
          (packet.drop cipher.ivLen)).1 := by
  by_cases hiv : packet.length < cipher.ivLen
  · simp only [udpDecryptPacket, hiv, ite_true]
  have hs : (slice packet 0 cipher.ivLen : Outcome CodecError _) =
      .ok (packet.take cipher.ivLen) := slice_of_le (by omega) (by omega)
  have hr : (slice packet cipher.ivLen packet.length : Outcome CodecError _) =
      .ok (packet.drop cipher.ivLen) := by
    rw [slice_of_le (by omega) (Nat.le_refl _), window, List.take_length, Outcome.pure_def]
  have hl : (packet.take cipher.ivLen).length = cipher.ivLen := by
    rw [List.length_take]
    omega
  have hn := CipherKind.newStream_of_takes (m := Outcome CodecError) P hkey hl
  simp only [udpDecryptPacket, hiv, ite_false, hs, hr, hn, Outcome.ok_bind, Outcome.pure_def]

theorem udpDecryptPacket_ne_panic {masterKey : List UInt8} (users : Users) (isMultiUser : Int)
    (packet : List UInt8) {cipher : CipherKind} (hkey : cipher.Takes masterKey) :
    udpDecryptPacket P masterKey users isMultiUser packet cipher ≠ .panic := by
  rw [udpDecryptPacket_spec P users isMultiUser packet hkey]
  split
  · simp
  · rw [udpServerPostDecrypt_spec]
    simp only
    split
    · simp
    · split <;> simp

/-- A datagram as the tests' client sends it. -/
def clientDatagram (cipher : CipherKind) (masterKey userKey iv : List UInt8) (uid : UInt32)
    (payload : List UInt8) : List UInt8 :=
  let body := payload ++ leBytes 4 uid.toNat
  iv ++ ((cipher.stream P masterKey iv).process P (body ++ mac P userKey body 4)).1

/-- The plain bytes of a datagram, behind its IV. -/
def udpBody (masterKey packet : List UInt8) (cipher : CipherKind) : List UInt8 :=
  ((cipher.stream P masterKey (packet.take cipher.ivLen)).process P (packet.drop cipher.ivLen)).1

@[simp] theorem length_udpBody (masterKey packet : List UInt8) (cipher : CipherKind) :
    (udpBody P masterKey packet cipher).length = packet.length - cipher.ivLen := by
  rw [udpBody, StreamCipher.length_process, List.length_drop]

section Fields

variable (payload : List UInt8) (uid : UInt32) {tail : List UInt8} (htail : tail.length = 4)

include htail

/-- The fields of a datagram from a client: payload, uid and MAC. -/
theorem udp_fields :
    udpUid (payload ++ leBytes 4 uid.toNat ++ tail) = uid.toNat ∧
    window (payload ++ leBytes 4 uid.toNat ++ tail) 0 (payload.length + 8 - 4) =
      payload ++ leBytes 4 uid.toNat ∧
    window (payload ++ leBytes 4 uid.toNat ++ tail) (payload.length + 8 - 4) (payload.length + 8) =
      tail ∧
    window (payload ++ leBytes 4 uid.toNat ++ tail) 0 (payload.length + 8 - 8) = payload := by
  have hlen : (payload ++ leBytes 4 uid.toNat ++ tail).length = payload.length + 8 := by
    rw [List.length_append, List.length_append, length_leBytes, htail]
  refine ⟨?_, ?_, ?_, ?_⟩
  · rw [udpUid, hlen, List.append_assoc,
      window_field payload (leBytes 4 uid.toNat) tail (by omega) (by rw [length_leBytes]; omega),
      leValue_leBytes_of_lt uid.toNat_lt]
  · exact window_head _ _ (by rw [List.length_append, length_leBytes]; omega)
  · exact window_last _ _ (by rw [List.length_append, length_leBytes]; omega)
      (by rw [List.length_append, length_leBytes, htail])
  · rw [List.append_assoc]
    exact window_head _ _ (by omega)

end Fields

/-- The server's answer to a client's datagram, whatever key the client used. -/
theorem udpServerPostDecrypt_client (masterKey : List UInt8) (users : Users) (isMultiUser : Int)
    (recvIv userKey payload : List UInt8) (uid : UInt32) :
    udpServerPostDecrypt P masterKey users isMultiUser recvIv (payload ++ leBytes 4 uid.toNat ++
        mac P userKey (payload ++ leBytes 4 uid.toNat) 4) =
      let who := udpSelect masterKey users isMultiUser recvIv uid.toNat
      if mac P who.userKey (payload ++ leBytes 4 uid.toNat) 4 ≠
          mac P userKey (payload ++ leBytes 4 uid.toNat) 4 then .err .udpHmac
      else .ok (payload, who.userId) := by
  generalize htail : mac P userKey (payload ++ leBytes 4 uid.toNat) 4 = tail
  have htail4 : tail.length = 4 := by rw [← htail, length_mac P _ _ (by omega)]
  have hlen : (payload ++ leBytes 4 uid.toNat ++ tail).length = payload.length + 8 := by
    rw [List.length_append, List.length_append, length_leBytes, htail4]
  obtain ⟨huid, hfront, hback, hpayload⟩ := udp_fields payload uid htail4
  rw [udpServerPostDecrypt_spec]
  simp only [hlen, huid, hfront, hback, hpayload]
  rw [if_neg (by omega)]

theorem udpBody_client (cipher : CipherKind) (masterKey userKey payload : List UInt8)
    {iv : List UInt8} (hiv : iv.length = cipher.ivLen) (uid : UInt32) :
    udpBody P masterKey (clientDatagram P cipher masterKey userKey iv uid payload) cipher =
      payload ++ leBytes 4 uid.toNat ++ mac P userKey (payload ++ leBytes 4 uid.toNat) 4 := by
  rw [udpBody, clientDatagram, ← hiv, List.take_left, List.drop_left,
    StreamCipher.process_involutive]

theorem udpDecryptPacket_client {masterKey : List UInt8} (users : Users) (isMultiUser : Int)
    {cipher : CipherKind} (hkey : cipher.Takes masterKey) (userKey payload : List UInt8)
    {iv : List UInt8} (hiv : iv.length = cipher.ivLen) (uid : UInt32) :
    udpDecryptPacket P masterKey users isMultiUser
        (clientDatagram P cipher masterKey userKey iv uid payload) cipher =
      let who := udpSelect masterKey users isMultiUser iv uid.toNat
      if mac P who.userKey (payload ++ leBytes 4 uid.toNat) 4 ≠
          mac P userKey (payload ++ leBytes 4 uid.toNat) 4 then .err .udpHmac
      else .ok (payload, who.userId) := by
  have hbody := udpBody_client P cipher masterKey userKey payload hiv uid
  have hlong : cipher.ivLen ≤ (clientDatagram P cipher masterKey userKey iv uid payload).length := by
    rw [clientDatagram, List.length_append, hiv]
    omega
  rw [udpDecryptPacket_spec P users isMultiUser _ hkey, if_neg (by omega)]
  change udpServerPostDecrypt P masterKey users isMultiUser _ (udpBody P masterKey _ cipher) = _
  rw [hbody, clientDatagram, ← hiv, List.take_left, udpServerPostDecrypt_client]

/-- The key of a datagram's MAC: that of the listed user, or else the port's own key
on an ordinary port and the IV on a carrier. -/
theorem udpSelect_eq (masterKey : List UInt8) (users : Users) (isMultiUser : Int)
    (recvIv : List UInt8) (uid : Nat) :
    udpSelect masterKey users isMultiUser recvIv uid =
      ⟨users.getD uid (if isMultiUser = 0 then masterKey else recvIv),
        if uid ∈ users then some uid else none⟩ := by
  cases h : users[uid]? with
  | some userKey =>
      have hmem : uid ∈ users := Std.HashMap.isSome_getElem?_iff_mem.mp (by rw [h]; rfl)
      simp only [udpSelect, h, if_pos hmem, Std.HashMap.getD_eq_getD_getElem?, Option.getD_some]
  | none =>
      have hnot : uid ∉ users := by
        rw [← Std.HashMap.isSome_getElem?_iff_mem, h]
        exact Bool.false_ne_true
      simp only [udpSelect, h, if_neg hnot, Std.HashMap.getD_eq_getD_getElem?, Option.getD_none]
      split
      · rfl
      · rfl

/-- A datagram is accepted exactly when it is long enough and its MAC verifies. -/
theorem udpDecryptPacket_ok_iff {masterKey : List UInt8} (users : Users) (isMultiUser : Int)
    (packet : List UInt8) {cipher : CipherKind} (hkey : cipher.Takes masterKey)
    (payload : List UInt8) (id : Option Nat) :
    udpDecryptPacket P masterKey users isMultiUser packet cipher = .ok (payload, id) ↔
      cipher.ivLen + 8 ≤ packet.length ∧
      let body := udpBody P masterKey packet cipher
      let who := udpSelect masterKey users isMultiUser (packet.take cipher.ivLen) (udpUid body)
      body.drop (body.length - 4) = mac P who.userKey (body.take (body.length - 4)) 4 ∧
      payload = body.take (body.length - 8) ∧ id = who.userId := by
  have hlen := length_udpBody P masterKey packet cipher
  rw [udpDecryptPacket_spec P users isMultiUser packet hkey]
  change (if _ then _ else udpServerPostDecrypt P masterKey users isMultiUser _
    (udpBody P masterKey packet cipher)) = _ ↔ _
  rw [udpServerPostDecrypt_spec]
  simp only [window_zero, window_to_end]
  by_cases hiv : packet.length < cipher.ivLen
  · rw [if_pos hiv]
    exact ⟨nofun, fun h => by omega⟩
  · rw [if_neg hiv]
    by_cases h8 : (udpBody P masterKey packet cipher).length < 8
    · rw [if_pos h8]
      exact ⟨nofun, fun h => by omega⟩
    · rw [if_neg h8]
      by_cases hmac : mac P (udpSelect masterKey users isMultiUser (packet.take cipher.ivLen)
          (udpUid (udpBody P masterKey packet cipher))).userKey
          ((udpBody P masterKey packet cipher).take
            ((udpBody P masterKey packet cipher).length - 4)) 4 =
          (udpBody P masterKey packet cipher).drop
            ((udpBody P masterKey packet cipher).length - 4)
      · rw [if_neg (not_not_intro hmac), Outcome.ok.injEq, Prod.mk.injEq]
        constructor
        · rintro ⟨rfl, rfl⟩
          exact ⟨by omega, hmac.symm, rfl, rfl⟩
        · rintro ⟨-, -, rfl, rfl⟩
          exact ⟨rfl, rfl⟩
      · rw [if_pos hmac]
        exact ⟨nofun, fun h => absurd h.2.1.symm hmac⟩

theorem udpEncryptPacket_body {masterKey : List UInt8} (protoKey headerAndPayload : List UInt8)
    {cipher : CipherKind} (hkey : cipher.Takes masterKey) {getrandom : GetRandom}
    {iv : Vector UInt8 cipher.ivLen} (hrandom : getrandom cipher.ivLen = .ok iv) :
    ∃ packet, udpEncryptPacket P masterKey protoKey headerAndPayload cipher getrandom =
        .ok packet ∧ packet.take cipher.ivLen = iv.toList ∧
      udpBody P masterKey packet cipher =
        headerAndPayload ++ mac P protoKey headerAndPayload 4 := by
  have hiv : iv.toList.length = cipher.ivLen := by simp
  have hstream := CipherKind.newStream_of_takes (m := Outcome CodecError) P hkey hiv
  have hmac : (hmacMd5Prefix P protoKey headerAndPayload 4 : Outcome CodecError _) =
      .ok (mac P protoKey headerAndPayload 4) := hmacMd5Prefix_of_le P _ _ (by omega)
  refine ⟨iv.toList ++ ((cipher.stream P masterKey iv.toList).process P
    (headerAndPayload ++ mac P protoKey headerAndPayload 4)).1, ?_, ?_, ?_⟩
  · simp only [udpEncryptPacket, udpServerPreEncrypt, hmac, Outcome.pure_def, Outcome.ok_bind,
      hrandom, hstream]
  · exact List.take_left' hiv
  · rw [udpBody, List.take_left' hiv, List.drop_left' hiv, StreamCipher.process_involutive]

/-- A datagram of a listed user. -/
theorem udpDecryptPacket_listed {masterKey : List UInt8} {users : Users} (isMultiUser : Int)
    {cipher : CipherKind} (hkey : cipher.Takes masterKey) {uid : UInt32} {userKey : List UInt8}
    (hlisted : users[uid.toNat]? = some userKey) {iv : List UInt8} (hiv : iv.length = cipher.ivLen)
    (payload : List UInt8) :
    udpDecryptPacket P masterKey users isMultiUser
      (clientDatagram P cipher masterKey userKey iv uid payload) cipher =
      .ok (payload, some uid.toNat) := by
  rw [udpDecryptPacket_client P users isMultiUser hkey userKey payload hiv]
  simp [udpSelect, hlisted]

/-- The datagram codec in both directions, for every key the cipher takes. -/
theorem udp_codec {masterKey : List UInt8} {cipher : CipherKind} (hkey : cipher.Takes masterKey)
    (users : Users) (isMultiUser : Int) :
    (∀ (packet payload : List UInt8) (id : Option Nat),
      udpDecryptPacket P masterKey users isMultiUser packet cipher = .ok (payload, id) ↔
        cipher.ivLen + 8 ≤ packet.length ∧
        let body := udpBody P masterKey packet cipher
        let n := body.length
        let uid := leValue ((body.drop (n - 8)).take 4)
        let key := users.getD uid (if isMultiUser = 0 then masterKey else packet.take cipher.ivLen)
        body.drop (n - 4) = mac P key (body.take (n - 4)) 4 ∧ payload = body.take (n - 8) ∧
        id = if uid ∈ users then some uid else none) ∧
    (∀ (uid : UInt32) (userKey iv payload : List UInt8), users[uid.toNat]? = some userKey →
      iv.length = cipher.ivLen →
      udpDecryptPacket P masterKey users isMultiUser
        (clientDatagram P cipher masterKey userKey iv uid payload) cipher =
        .ok (payload, some uid.toNat)) ∧
    ∀ (protoKey headerAndPayload : List UInt8) (getrandom : GetRandom)
      (iv : Vector UInt8 cipher.ivLen), getrandom cipher.ivLen = .ok iv →
      ∃ packet, udpEncryptPacket P masterKey protoKey headerAndPayload cipher getrandom =
          .ok packet ∧ packet.take cipher.ivLen = iv.toList ∧
        udpBody P masterKey packet cipher =
          headerAndPayload ++ mac P protoKey headerAndPayload 4 := by
  refine ⟨?_, ?_, ?_⟩
  · intro packet payload id
    rw [udpDecryptPacket_ok_iff P users isMultiUser packet hkey]
    have huid (h : cipher.ivLen + 8 ≤ packet.length) : udpUid (udpBody P masterKey packet cipher) =
        leValue (((udpBody P masterKey packet cipher).drop
          ((udpBody P masterKey packet cipher).length - 8)).take 4) := by
      have hlen := length_udpBody P masterKey packet cipher
      rw [udpUid, window, List.take_drop]
      congr 3
      omega
    constructor
    · rintro ⟨hlong, h⟩
      simp only [udpSelect_eq, huid hlong] at h
      exact ⟨hlong, h⟩
    · rintro ⟨hlong, h⟩
      refine ⟨hlong, ?_⟩
      simp only [udpSelect_eq, huid hlong]
      exact h
  · intro uid userKey iv payload hlisted hiv
    exact udpDecryptPacket_listed P isMultiUser hkey hlisted hiv payload
  · intro protoKey headerAndPayload getrandom iv hrandom
    exact udpEncryptPacket_body P protoKey headerAndPayload hkey hrandom

theorem udp_codec_chacha :
    udpDecryptPacket .standard (List.replicate 32 0) ((∅ : Users).insert 7 [1, 2, 3]) 2
      (clientDatagram .standard .chacha20Ietf (List.replicate 32 0) [1, 2, 3]
        (List.replicate 12 0x42) 7 [10]) .chacha20Ietf = .ok ([10], some 7) := by
  have hkey : CipherKind.chacha20Ietf.Takes (List.replicate 32 0) := fun _ => rfl
  exact (udp_codec .standard hkey _ 2).2.1 7 [1, 2, 3] _ [10] (by simp) rfl

end SsrBackend
