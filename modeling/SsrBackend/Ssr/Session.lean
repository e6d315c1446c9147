import SsrBackend.Ssr.Cipher
import SsrBackend.Ssr.ProtocolReceive
import SsrBackend.Ssr.ProtocolSend

/-!
One connection's codec state (`ssr/mod.rs`): `ServerSession` with its receive
and send sides. `received` says what a session holds after it has been given the
wire bytes `W` in calls of any size, so a step of `decrypt` is a step from
`W` to `W ++ raw` and nothing about the calls before it is left in the state.
-/

namespace SsrBackend

open Call Resumable

variable (P : Primitives)

structure ServerSession where
  cipher : CipherKind
  masterKey : List UInt8
  recvIvBuf : List UInt8
  decryptor : Option StreamCipher
  protocol : Option AuthAes128Md5
  users : Users
  isMultiUser : Int
  sendIv : List UInt8
  encryptor : StreamCipher
  sendIvEmitted : Bool

def deriveMasterKey (password : String) (cipher : CipherKind) : List UInt8 :=
  evpBytesToKey P (asBytes password) cipher.keyLen

/-- `getrandom::getrandom` on a buffer of `n` bytes. -/
abbrev GetRandom : Type := (n : Nat) → Except String (Vector UInt8 n)

namespace ServerSession

/-- A session before its first call. -/
def start (cipher : CipherKind) (masterKey : List UInt8) (users : Users) (isMultiUser : Int)
    (sendIv : List UInt8) : ServerSession where
  cipher := cipher
  masterKey := masterKey
  recvIvBuf := []
  decryptor := none
  protocol := none
  users := users
  isMultiUser := isMultiUser
  sendIv := sendIv
  encryptor := cipher.stream P masterKey sendIv
  sendIvEmitted := false

/-- `ServerSession::new`. The randomness of the send IV is an argument. -/
def new (password : String) (users : Users) (isMultiUser : Int) (cipher : CipherKind)
    (getrandom : GetRandom) : Outcome CodecError ServerSession := do
  let masterKey := evpBytesToKey P (asBytes password) cipher.keyLen
  let sendIv ← match getrandom cipher.ivLen with
    | .ok iv => pure iv.toList
    | .error reason => Outcome.err (.randomIv reason)
  let encryptor ← cipher.newStream P masterKey sendIv
  return {
    cipher := cipher
    masterKey := masterKey
    recvIvBuf := []
    decryptor := none
    protocol := none
    users := users
    isMultiUser := isMultiUser
    sendIv := sendIv
    encryptor := encryptor
    sendIvEmitted := false
  }

/-- A call on the protocol layer of a session that has one. -/
def onProtocol {α : Type} (call : Call CodecError AuthAes128Md5 α) :
    Call CodecError ServerSession α where
  run s := match s.protocol with
    | none => (.panic, s)
    | some protocol =>
        ((call.run protocol).1, { s with protocol := some (call.run protocol).2 })

/-- The part of `decrypt` behind the IV. -/
def decryptBody (cipherBytes : List UInt8) : Call CodecError ServerSession (List UInt8) := do
  if cipherBytes = [] then
    return []
  else
    let decryptor ← expect (← get).decryptor
    modify fun s => { s with decryptor := some (decryptor.process P cipherBytes).2 }
    onProtocol (AuthAes128Md5.serverPostDecrypt P (decryptor.process P cipherBytes).1)

def decrypt (raw : List UInt8) : Call CodecError ServerSession (List UInt8) := do
  match (← get).decryptor with
  | some _ => decryptBody P raw
  | none =>
      modify fun s => { s with recvIvBuf := s.recvIvBuf ++ raw }
      let s ← get
      let ivLen := s.cipher.ivLen
      if s.recvIvBuf.length < ivLen then
        return []
      else
        let iv ← slice s.recvIvBuf 0 ivLen
        let rest ← slice s.recvIvBuf ivLen s.recvIvBuf.length
        modify fun s => { s with recvIvBuf := [] }
        let decryptor ← s.cipher.newStream P s.masterKey iv
        let protocol ← AuthAes128Md5.new P s.masterKey iv s.users s.isMultiUser
        modify fun s => { s with decryptor := some decryptor, protocol := some protocol }
        decryptBody P rest

/-- `decrypt` with `body` for the part behind the IV. -/
def decryptWith (body : List UInt8 → Call CodecError ServerSession (List UInt8))
    (raw : List UInt8) : Call CodecError ServerSession (List UInt8) := do
  match (← get).decryptor with
  | some _ => body raw
  | none =>
      modify fun s => { s with recvIvBuf := s.recvIvBuf ++ raw }
      let s ← get
      let ivLen := s.cipher.ivLen
      if s.recvIvBuf.length < ivLen then
        return []
      else
        let iv ← slice s.recvIvBuf 0 ivLen
        let rest ← slice s.recvIvBuf ivLen s.recvIvBuf.length
        modify fun s => { s with recvIvBuf := [] }
        let decryptor ← s.cipher.newStream P s.masterKey iv
        let protocol ← AuthAes128Md5.new P s.masterKey iv s.users s.isMultiUser
        modify fun s => { s with decryptor := some decryptor, protocol := some protocol }
        body rest

theorem decrypt_eq_with (raw : List UInt8) :
    decrypt P raw = decryptWith P (decryptBody P) raw := rfl

def userId (s : ServerSession) : Option Nat := s.protocol.bind AuthAes128Md5.userId

def encrypt (plaintext : List UInt8) : Call CodecError ServerSession (List UInt8) := do
  match (← get).protocol with
  | none => bail .encryptBeforeHandshake
  | some _ =>
      let body ← onProtocol (AuthAes128Md5.serverPreEncrypt P plaintext)
      let s ← get
      let out := (s.encryptor.process P body).1
      modify fun s => { s with encryptor := (s.encryptor.process P body).2 }
      if s.sendIvEmitted then
        return out
      else
        modify fun s => { s with sendIvEmitted := true }
        return s.sendIv ++ out

/-- The calls of a receiver, one for each chunk. An error does not end the run. -/
def feed : ServerSession → List (List UInt8) →
    List (Outcome CodecError (List UInt8)) × ServerSession
  | s, [] => ([], s)
  | s, raw :: chunks =>
      let rest := feed ((decrypt P raw).run s).2 chunks
      (((decrypt P raw).run s).1 :: rest.1, rest.2)

def params (s : ServerSession) (wire : List UInt8) : Params :=
  ⟨s.masterKey, wire.take s.cipher.ivLen, s.users, s.isMultiUser⟩

/-- The stream-cipher decryption of the wire bytes behind their IV, and the cipher after it. -/
def plain (s : ServerSession) (wire : List UInt8) : List UInt8 × StreamCipher :=
  (s.cipher.stream P s.masterKey (wire.take s.cipher.ivLen)).process P
    (wire.drop s.cipher.ivLen)

def decoded (s : ServerSession) (wire : List UInt8) :
    Except CodecError (Drained UInt8 UInt8 Phase) :=
  (protocolReader P (s.params wire)).drain .header (s.plain P wire).1

/-- The session with an open receive side. -/
def opened (s : ServerSession) (decryptor : StreamCipher) (protocol : AuthAes128Md5) :
    ServerSession :=
  { s with recvIvBuf := [], decryptor := some decryptor, protocol := some protocol }

/-- The session after the wire bytes `wire`, which were decoded to `r`. -/
def received (s : ServerSession) (wire : List UInt8) (packId : UInt32)
    (r : Drained UInt8 UInt8 Phase) : ServerSession :=
  if wire.length < s.cipher.ivLen then
    { s with recvIvBuf := wire, decryptor := none, protocol := none }
  else
    s.opened (s.plain P wire).2
      (AuthAes128Md5.ofPhase P (s.params wire) r.2.1 r.2.2 packId)

/-- The protocol layer is stuck, and with it the receive side. -/
def Stuck (s : ServerSession) : Prop :=
  ∃ decryptor protocol, s.decryptor = some decryptor ∧ s.protocol = some protocol ∧
    protocol.Stuck P

variable {P}

theorem decryptBody_of_ne_nil {cipherBytes : List UInt8} (h : cipherBytes ≠ [])
    (s : ServerSession) (decryptor : StreamCipher) (protocol : AuthAes128Md5) :
    (decryptBody P cipherBytes).run (s.opened decryptor protocol) =
      (((AuthAes128Md5.serverPostDecrypt P (decryptor.process P cipherBytes).1).run protocol).1,
        s.opened (decryptor.process P cipherBytes).2
          ((AuthAes128Md5.serverPostDecrypt P
            (decryptor.process P cipherBytes).1).run protocol).2) := by
  rw [decryptBody, if_neg h]
  rfl

theorem decryptBody_opened (par : Params) (phase : Phase) (buf : List UInt8)
    (hsettled : (protocolReader P par).attempt phase buf = .wait) (s : ServerSession)
    (decryptor : StreamCipher) (packId : UInt32) (cipherBytes : List UInt8) :
    match (protocolReader P par).drain phase (buf ++ (decryptor.process P cipherBytes).1) with
    | .ok r => (decryptBody P cipherBytes).run
          (s.opened decryptor (AuthAes128Md5.ofPhase P par phase buf packId)) =
        (.ok r.1, s.opened (decryptor.process P cipherBytes).2
          (AuthAes128Md5.ofPhase P par r.2.1 r.2.2 packId))
    | .error e => ((decryptBody P cipherBytes).run
          (s.opened decryptor (AuthAes128Md5.ofPhase P par phase buf packId))).1 = .err e ∧
        ((decryptBody P cipherBytes).run
          (s.opened decryptor (AuthAes128Md5.ofPhase P par phase buf packId))).2.Stuck P := by
  by_cases hempty : cipherBytes = []
  · subst hempty
    rw [StreamCipher.process_nil, List.append_nil, Reader.drain_wait hsettled]
    rfl
  · have hrun := decryptBody_of_ne_nil (P := P) hempty s decryptor
      (AuthAes128Md5.ofPhase P par phase buf packId)
    have hspec := AuthAes128Md5.serverPostDecrypt_spec (P := P) par phase buf packId
      (decryptor.process P cipherBytes).1
    rw [hrun]
    cases hd : (protocolReader P par).drain phase (buf ++ (decryptor.process P cipherBytes).1) with
    | ok r =>
        rw [hd] at hspec
        have hcall : _ = _ := hspec
        rw [hcall]
        rfl
    | error e =>
        rw [hd] at hspec
        exact ⟨hspec.1, _, _, rfl, rfl, hspec.2.1⟩

/-- A run on an open receive side whose reader drains what comes in. -/
theorem feed_opened (par : Params) (phase : Phase) (buf : List UInt8)
    (hsettled : (protocolReader P par).attempt phase buf = .wait) (s : ServerSession)
    (decryptor : StreamCipher) (packId : UInt32) (chunks : List (List UInt8))
    {r : Drained UInt8 UInt8 Phase}
    (h : (protocolReader P par).drain phase
      (buf ++ (decryptor.process P chunks.flatten).1) = .ok r) :
    ∃ outs : List (List UInt8), r.1 = outs.flatten ∧
      (feed P (s.opened decryptor (AuthAes128Md5.ofPhase P par phase buf packId)) chunks).1 =
        outs.map .ok := by
  induction chunks generalizing phase buf decryptor r with
  | nil =>
      rw [List.flatten_nil, StreamCipher.process_nil, List.append_nil,
        Reader.drain_wait hsettled] at h
      cases h
      exact ⟨[], rfl, rfl⟩
  | cons raw chunks ih =>
      rw [List.flatten_cons, StreamCipher.process_append, ← List.append_assoc] at h
      obtain ⟨mid, hmid⟩ := Reader.drain_of_append h
      have hcall := decryptBody_opened par phase buf hsettled s decryptor packId raw
      rw [Reader.drain_append, hmid] at h
      rw [hmid] at hcall
      change Except.map _ _ = _ at h
      cases hrest : (protocolReader P par).drain mid.2.1
          (mid.2.2 ++ ((decryptor.process P raw).2.process P chunks.flatten).1) with
      | error e => simp [hrest, Except.map] at h
      | ok r' =>
          simp only [hrest, Except.map, Except.ok.injEq] at h
          subst h
          obtain ⟨outs, houts, hfeed⟩ := ih mid.2.1 mid.2.2 (Reader.drain_settled hmid) _ hrest
          have hdecrypt : (decrypt P raw).run
              (s.opened decryptor (AuthAes128Md5.ofPhase P par phase buf packId)) =
              (.ok mid.1, s.opened (decryptor.process P raw).2
                (AuthAes128Md5.ofPhase P par mid.2.1 mid.2.2 packId)) := hcall
          refine ⟨mid.1 :: outs, ?_, ?_⟩
          · rw [List.flatten_cons, ← houts]
            rfl
          · simp only [feed, hdecrypt, hfeed, List.map_cons]

theorem decoded_of_lt {s : ServerSession} {wire : List UInt8}
    (h : wire.length < s.cipher.ivLen) : s.decoded P wire = .ok ([], .header, []) := by
  have hdrop : wire.drop s.cipher.ivLen = [] := List.drop_eq_nil_of_le (by omega)
  rw [decoded, plain, hdrop, StreamCipher.process_nil]
  exact Reader.drain_wait rfl

/-- More wire bytes behind a complete IV: the reader goes on where it stopped. -/
theorem decoded_append {s : ServerSession} {wire : List UInt8}
    (h : s.cipher.ivLen ≤ wire.length) (raw : List UInt8) :
    s.params (wire ++ raw) = s.params wire ∧
    s.plain P (wire ++ raw) =
      ((s.plain P wire).1 ++ ((s.plain P wire).2.process P raw).1,
        ((s.plain P wire).2.process P raw).2) ∧
    s.decoded P (wire ++ raw) = (s.decoded P wire).bind fun r =>
      ((protocolReader P (s.params wire)).drain r.2.1
        (r.2.2 ++ ((s.plain P wire).2.process P raw).1)).map (Drained.after r.1) := by
  have htake : (wire ++ raw).take s.cipher.ivLen = wire.take s.cipher.ivLen :=
    List.take_append_of_le_length h
  have hpar : s.params (wire ++ raw) = s.params wire := by rw [params, params, htake]
  have hplain : s.plain P (wire ++ raw) =
      ((s.plain P wire).1 ++ ((s.plain P wire).2.process P raw).1,
        ((s.plain P wire).2.process P raw).2) := by
    rw [plain, htake, List.drop_append_of_le_length h, StreamCipher.process_append]
    rfl
  refine ⟨hpar, hplain, ?_⟩
  rw [decoded, hpar, hplain]
  exact Reader.drain_append _ _ _

/-- How a call of `decrypt` ends that takes a session from `wire` to `wire ++ raw`. -/
def Decrypted (P : Primitives) (s : ServerSession) (wire : List UInt8) (packId : UInt32) (before : List UInt8)
    (call : Outcome CodecError (List UInt8) × ServerSession) :
    Except CodecError (Drained UInt8 UInt8 Phase) → Prop
  | .ok r => ∃ out, r.1 = before ++ out ∧ call = (.ok out, s.received P wire packId r)
  | .error e => call.1 = .err e ∧ call.2.Stuck P

section Open

variable (body : List UInt8 → Call CodecError ServerSession (List UInt8)) {s : ServerSession}

theorem decryptWith_of_some {decryptor : StreamCipher} (h : s.decryptor = some decryptor)
    (raw : List UInt8) : (decryptWith P body raw).run s = (body raw).run s := by
  simp only [decryptWith, Call.run_get_bind, h]

theorem decryptWith_of_short (hd : s.decryptor = none) {raw : List UInt8}
    (h : (s.recvIvBuf ++ raw).length < s.cipher.ivLen) :
    (decryptWith P body raw).run s = (.ok [], { s with recvIvBuf := s.recvIvBuf ++ raw }) := by
  simp only [decryptWith, Call.run_get_bind, hd, Call.run_modify_bind, h, ite_true, Call.run_pure]

/-- The call that completes the IV opens the receive side and goes on behind it. -/
theorem decryptWith_of_open (hkey : s.masterKey.length = s.cipher.keyLen)
    (hd : s.decryptor = none) {raw : List UInt8}
    (h : s.cipher.ivLen ≤ (s.recvIvBuf ++ raw).length) :
    (decryptWith P body raw).run s =
      (body ((s.recvIvBuf ++ raw).drop s.cipher.ivLen)).run
        (s.opened (s.cipher.stream P s.masterKey ((s.recvIvBuf ++ raw).take s.cipher.ivLen))
          (AuthAes128Md5.ofPhase P (s.params (s.recvIvBuf ++ raw)) .header [] 1)) := by
  have hiv : ((s.recvIvBuf ++ raw).take s.cipher.ivLen).length = s.cipher.ivLen := by
    rw [List.length_take]
    omega
  have hslice : (slice (s.recvIvBuf ++ raw) 0 s.cipher.ivLen : Call CodecError ServerSession _) =
      pure ((s.recvIvBuf ++ raw).take s.cipher.ivLen) := slice_of_le (Nat.zero_le _) h
  have hrest : (slice (s.recvIvBuf ++ raw) s.cipher.ivLen (s.recvIvBuf ++ raw).length :
      Call CodecError ServerSession _) = pure ((s.recvIvBuf ++ raw).drop s.cipher.ivLen) := by
    rw [slice_of_le h (Nat.le_refl _), window, List.take_length]
  have hnew : (AuthAes128Md5.new P s.masterKey ((s.recvIvBuf ++ raw).take s.cipher.ivLen) s.users
      s.isMultiUser : Call CodecError ServerSession _) =
      pure (AuthAes128Md5.ofPhase P (s.params (s.recvIvBuf ++ raw)) .header [] 1) :=
    AuthAes128Md5.new_eq P (s.params (s.recvIvBuf ++ raw))
  simp only [decryptWith, Call.run_get_bind, hd, Call.run_modify_bind, Nat.not_lt.mpr h, ite_false,
    hslice, hrest, pure_bind, CipherKind.newStream_of_length P s.cipher hkey hiv, hnew]
  rfl

end Open

theorem decrypt_of_some {s : ServerSession} {decryptor : StreamCipher}
    (h : s.decryptor = some decryptor) (raw : List UInt8) :
    (decrypt P raw).run s = (decryptBody P raw).run s := by
  rw [decrypt_eq_with, decryptWith_of_some _ h]

theorem decrypt_of_short {s : ServerSession} (hd : s.decryptor = none) {raw : List UInt8}
    (h : (s.recvIvBuf ++ raw).length < s.cipher.ivLen) :
    (decrypt P raw).run s = (.ok [], { s with recvIvBuf := s.recvIvBuf ++ raw }) := by
  rw [decrypt_eq_with, decryptWith_of_short _ hd h]

theorem decrypt_of_open {s : ServerSession} (hkey : s.masterKey.length = s.cipher.keyLen)
    (hd : s.decryptor = none) {raw : List UInt8}
    (h : s.cipher.ivLen ≤ (s.recvIvBuf ++ raw).length) :
    (decrypt P raw).run s =
      (decryptBody P ((s.recvIvBuf ++ raw).drop s.cipher.ivLen)).run
        (s.opened (s.cipher.stream P s.masterKey ((s.recvIvBuf ++ raw).take s.cipher.ivLen))
          (AuthAes128Md5.ofPhase P (s.params (s.recvIvBuf ++ raw)) .header [] 1)) := by
  rw [decrypt_eq_with, decryptWith_of_open _ hkey hd h]

theorem received_of_lt {s : ServerSession} {wire : List UInt8} (packId : UInt32)
    (r : Drained UInt8 UInt8 Phase) (h : wire.length < s.cipher.ivLen) :
    s.received P wire packId r =
      { s with recvIvBuf := wire, decryptor := none, protocol := none } := by
  rw [received, if_pos h]

theorem decrypt_received {s : ServerSession} (hkey : s.masterKey.length = s.cipher.keyLen)
    {wire : List UInt8} {packId : UInt32} (hpack : wire.length < s.cipher.ivLen → packId = 1)
    {r : Drained UInt8 UInt8 Phase} (h : s.decoded P wire = .ok r) (raw : List UInt8) :
    s.Decrypted P (wire ++ raw) packId r.1
      ((decrypt P raw).run (s.received P wire packId r)) (s.decoded P (wire ++ raw)) := by
  by_cases hw : wire.length < s.cipher.ivLen
  · have hr : r = ([], .header, []) := by
      rw [decoded_of_lt hw] at h
      exact (Except.ok.inj h).symm
    subst hr
    rw [received_of_lt packId _ hw]
    by_cases hshort : (wire ++ raw).length < s.cipher.ivLen
    · rw [decrypt_of_short rfl hshort, decoded_of_lt hshort]
      exact ⟨[], rfl, by rw [received_of_lt packId _ hshort]⟩
    · have hbody := decryptBody_opened (P := P) (s.params (wire ++ raw)) .header [] rfl s
        (s.cipher.stream P s.masterKey ((wire ++ raw).take s.cipher.ivLen)) 1 ((wire ++ raw).drop s.cipher.ivLen)
      have hopen := decrypt_of_open (P := P)
        (s := { s with recvIvBuf := wire, decryptor := none, protocol := none }) hkey rfl
        (Nat.le_of_not_lt hshort)
      rw [hopen, hpack hw]
      change match s.decoded P (wire ++ raw) with
        | .ok r => _
        | .error e => _ at hbody
      cases hd : s.decoded P (wire ++ raw) with
      | ok r =>
          rw [hd] at hbody
          refine ⟨r.1, rfl, ?_⟩
          rw [received, if_neg hshort]
          exact hbody
      | error e =>
          rw [hd] at hbody
          exact hbody
  · obtain ⟨hpar, hplain, hdec⟩ := decoded_append (P := P) (Nat.le_of_not_lt hw) raw
    have hlong : ¬(wire ++ raw).length < s.cipher.ivLen := by
      rw [List.length_append]
      omega
    have hbody := decryptBody_opened _ _ _ (Reader.drain_settled h) s (s.plain P wire).2 packId raw
    have hcall : (decrypt P raw).run (s.received P wire packId r) =
        (decryptBody P raw).run (s.opened (s.plain P wire).2
          (AuthAes128Md5.ofPhase P (s.params wire) r.2.1 r.2.2 packId)) := by
      rw [received, if_neg hw]
      rfl
    have hnext : s.decoded P (wire ++ raw) = ((protocolReader P (s.params wire)).drain r.2.1
        (r.2.2 ++ ((s.plain P wire).2.process P raw).1)).map (Drained.after r.1) := by
      rw [hdec, h]
      rfl
    rw [hcall, hnext]
    cases hd : (protocolReader P (s.params wire)).drain r.2.1
        (r.2.2 ++ ((s.plain P wire).2.process P raw).1) with
    | ok r' =>
        rw [hd] at hbody
        refine ⟨r'.1, rfl, ?_⟩
        rw [received, if_neg hlong, hpar, hplain]
        exact hbody
    | error e =>
        rw [hd] at hbody
        exact hbody

theorem decrypt_stuck {s : ServerSession} (h : s.Stuck P) (raw : List UInt8) :
    (raw = [] ∧ (decrypt P raw).run s = (.ok [], s)) ∨
      ∃ e, ((decrypt P raw).run s).1 = .err e ∧ ((decrypt P raw).run s).2.Stuck P := by
  obtain ⟨decryptor, protocol, hd, hp, hstuck⟩ := h
  have hcall := decrypt_of_some (P := P) hd raw
  by_cases hempty : raw = []
  · left
    refine ⟨hempty, ?_⟩
    rw [hcall, decryptBody, if_pos hempty]
    rfl
  · right
    obtain ⟨e, herr, hnext⟩ :=
      AuthAes128Md5.serverPostDecrypt_stuck hstuck (decryptor.process P raw).1
    have hrun : (decryptBody P raw).run s =
        (((AuthAes128Md5.serverPostDecrypt P (decryptor.process P raw).1).run protocol).1,
          { s with
            decryptor := some (decryptor.process P raw).2
            protocol := some ((AuthAes128Md5.serverPostDecrypt P
              (decryptor.process P raw).1).run protocol).2 }) := by
      rw [decryptBody, if_neg hempty]
      simp only [Call.run_get_bind, hd, expect_some, pure_bind, Call.run_modify_bind, onProtocol,
        hp]
    rw [hcall, hrun]
    exact ⟨e, herr, _, _, rfl, rfl, hnext⟩

/-- A session no byte has been given to, over any master key of the cipher's size. -/
structure Fresh (P : Primitives) (s : ServerSession) : Prop where
  masterKey_length : s.masterKey.length = s.cipher.keyLen
  sendIv_length : s.sendIv.length = s.cipher.ivLen
  recvIvBuf_nil : s.recvIvBuf = []
  decryptor_none : s.decryptor = none
  protocol_none : s.protocol = none
  encryptor_eq : s.encryptor = s.cipher.stream P s.masterKey s.sendIv
  not_emitted : s.sendIvEmitted = false

theorem fresh_start {cipher : CipherKind} {masterKey sendIv : List UInt8} (users : Users)
    (isMultiUser : Int) (hkey : masterKey.length = cipher.keyLen)
    (hiv : sendIv.length = cipher.ivLen) :
    (start P cipher masterKey users isMultiUser sendIv).Fresh P :=
  ⟨hkey, hiv, rfl, rfl, rfl, rfl, rfl⟩

/-- `new` makes a fresh session, and fails only when there is no randomness. -/
theorem new_spec (password : String) (users : Users) (isMultiUser : Int) (cipher : CipherKind)
    (getrandom : GetRandom) :
    new P password users isMultiUser cipher getrandom = match getrandom cipher.ivLen with
      | .error reason => .err (.randomIv reason)
      | .ok iv => .ok (start P cipher (deriveMasterKey P password cipher) users isMultiUser
          iv.toList) := by
  cases hr : getrandom cipher.ivLen with
  | error reason =>
      simp only [new, hr]
      rfl
  | ok iv =>
      have hkey : (evpBytesToKey P (asBytes password) cipher.keyLen).length = cipher.keyLen := by
        simp
      have hstream := CipherKind.newStream_of_length (m := Outcome CodecError) P cipher hkey
        (show iv.toList.length = cipher.ivLen by simp)
      simp only [new, hr, hstream, Outcome.pure_def, Outcome.ok_bind]
      rfl

theorem fresh_of_new {password : String} {users : Users} {isMultiUser : Int}
    {cipher : CipherKind} {getrandom : GetRandom} {s : ServerSession}
    (h : new P password users isMultiUser cipher getrandom = .ok s) :
    s.Fresh P ∧ s.cipher = cipher ∧ s.masterKey = deriveMasterKey P password cipher ∧
      s.users = users ∧ s.isMultiUser = isMultiUser := by
  rw [new_spec] at h
  cases hr : getrandom cipher.ivLen with
  | error reason => simp [hr] at h
  | ok iv =>
      simp only [hr, Outcome.ok.injEq] at h
      subst h
      refine ⟨fresh_start users isMultiUser ?_ ?_, rfl, rfl, rfl, rfl⟩
      · simp [deriveMasterKey]
      · simp

theorem Fresh.received_nil {s : ServerSession} (h : s.Fresh P)
    (r : Drained UInt8 UInt8 Phase) : s.received P [] 1 r = s := by
  have hlt : ([] : List UInt8).length < s.cipher.ivLen := s.cipher.ivLen_pos
  rw [received, if_pos hlt]
  obtain ⟨-, -, hbuf, hdec, hprot, -, -⟩ := h
  cases s
  simp_all

theorem decoded_nil (s : ServerSession) :
    s.decoded P [] = .ok ([], .header, []) := decoded_of_lt s.cipher.ivLen_pos

theorem feed_append (s : ServerSession) (xs ys : List (List UInt8)) :
    feed P s (xs ++ ys) =
      ((feed P s xs).1 ++ (feed P (feed P s xs).2 ys).1, (feed P (feed P s xs).2 ys).2) := by
  induction xs generalizing s with
  | nil => rfl
  | cons x xs ih => simp only [List.cons_append, feed, ih]

/-- What a prefix of the wire decodes to is a prefix of what the wire decodes to,
and an error stays. -/
theorem decoded_prefix (s : ServerSession) (wire raw : List UInt8) :
    match s.decoded P wire with
    | .ok r => ∀ r', s.decoded P (wire ++ raw) = .ok r' → ∃ out, r'.1 = r.1 ++ out
    | .error e => s.decoded P (wire ++ raw) = .error e := by
  by_cases hw : wire.length < s.cipher.ivLen
  · rw [decoded_of_lt hw]
    intro r' _
    exact ⟨r'.1, rfl⟩
  · have hdec := (decoded_append (P := P) (Nat.le_of_not_lt hw) raw).2.2
    cases hd : s.decoded P wire with
    | error e =>
        rw [hdec, hd]
        rfl
    | ok r =>
        intro r' hr'
        rw [hdec, hd] at hr'
        change Except.map _ _ = _ at hr'
        cases hmore : (protocolReader P (s.params wire)).drain r.2.1
            (r.2.2 ++ ((s.plain P wire).2.process P raw).1) with
        | error e => simp [hmore, Except.map] at hr'
        | ok r'' =>
            simp only [hmore, Except.map, Except.ok.injEq] at hr'
            exact ⟨r''.1, by rw [← hr']; rfl⟩

/-- A run of `decrypt` calls from a session that has taken in `wire`. -/
theorem feed_received {s : ServerSession} (hkey : s.masterKey.length = s.cipher.keyLen)
    {wire : List UInt8} {r : Drained UInt8 UInt8 Phase} (h : s.decoded P wire = .ok r)
    (chunks : List (List UInt8)) :
    match s.decoded P (wire ++ chunks.flatten) with
    | .ok r' => ∃ outs : List (List UInt8), r'.1 = r.1 ++ outs.flatten ∧
        feed P (s.received P wire 1 r) chunks =
          (outs.map .ok, s.received P (wire ++ chunks.flatten) 1 r')
    | .error e => .err e ∈ (feed P (s.received P wire 1 r) chunks).1 := by
  induction chunks generalizing wire r with
  | nil =>
      rw [List.flatten_nil, List.append_nil, h]
      exact ⟨[], by simp, rfl⟩
  | cons raw chunks ih =>
      have hstep := decrypt_received (P := P) hkey (fun _ => rfl) h raw
      rw [List.flatten_cons, ← List.append_assoc]
      cases hd : s.decoded P (wire ++ raw) with
      | error e =>
          rw [hd] at hstep
          have hpre := decoded_prefix (P := P) s (wire ++ raw) chunks.flatten
          rw [hd] at hpre
          rw [hpre]
          refine List.mem_cons.mpr (Or.inl ?_)
          exact hstep.1.symm
      | ok r' =>
          rw [hd] at hstep
          obtain ⟨out, hout, hcall⟩ := hstep
          have hrest := ih hd
          cases hend : s.decoded P (wire ++ raw ++ chunks.flatten) with
          | ok r'' =>
              rw [hend] at hrest
              obtain ⟨outs, houts, hfeed⟩ := hrest
              refine ⟨out :: outs, ?_, ?_⟩
              · rw [houts, hout, List.flatten_cons, List.append_assoc]
              · simp only [feed, hcall, hfeed, List.map_cons]
          | error e =>
              rw [hend] at hrest
              refine List.mem_cons.mpr (Or.inr ?_)
              simp only [hcall]
              exact hrest

/-- How a run from a fresh session ends: with the decoding of the wire. -/
theorem Fresh.feed_spec {s : ServerSession} (hs : s.Fresh P) (chunks : List (List UInt8)) :
    match s.decoded P chunks.flatten with
    | .ok r => ∃ outs : List (List UInt8), r.1 = outs.flatten ∧
        feed P s chunks = (outs.map .ok, s.received P chunks.flatten 1 r)
    | .error e => .err e ∈ (feed P s chunks).1 := by
  have h := feed_received (P := P) hs.masterKey_length s.decoded_nil chunks
  rw [hs.received_nil, List.nil_append] at h
  exact h

theorem received_streaming {s : ServerSession} {wire : List UInt8} (packId : UInt32) {id : UInt32}
    {r : Drained UInt8 UInt8 Phase} {who : Identity} (h : s.decoded P wire = .ok r)
    (hphase : r.2.1 = .stream who id) :
    s.received P wire packId r = s.opened (s.plain P wire).2
      (AuthAes128Md5.ofPhase P (s.params wire) (.stream who id) r.2.2 packId) := by
  have hlong : ¬ wire.length < s.cipher.ivLen := by
    intro hshort
    rw [decoded_of_lt hshort] at h
    rw [← Except.ok.inj h] at hphase
    cases hphase
  rw [received, if_neg hlong, hphase]

/-- Once packets are streaming, the session reports whom their header selected. -/
theorem received_userId {s : ServerSession} {wire : List UInt8} {packId id : UInt32}
    {r : Drained UInt8 UInt8 Phase} {who : Identity} (h : s.decoded P wire = .ok r)
    (hphase : r.2.1 = .stream who id) : (s.received P wire packId r).userId = who.userId := by
  rw [received_streaming packId h hphase]
  rfl

end ServerSession

end SsrBackend
