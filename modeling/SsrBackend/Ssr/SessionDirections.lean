import SsrBackend.Foundation.Unwinding
import SsrBackend.Ssr.SessionSending

/-!
The two directions of a session whose auth header is accepted. They share one
protocol layer, but a receive call reads and writes its id and buffer of received
bytes and a send call its pack id, so a run of calls is, for each direction, the run
of that direction's calls alone. The keys and the user stay what the header made them.
-/

namespace SsrBackend

open Unwinding

variable {P : Primitives}

namespace AuthAes128Md5

/-- The packet loop neither reads nor writes the id of the packets sent. -/
theorem packetLoop_packId (out : List UInt8) (s : AuthAes128Md5) (packId : UInt32) :
    packetLoop P out { s with packId := packId } =
      ((packetLoop P out s).1, { (packetLoop P out s).2 with packId := packId }) := by
  generalize hn : s.recvBuf.length = n
  induction n using Nat.strongRecOn generalizing out s with
  | ind n ih =>
      cases ha : packetAttempt P s.identity s.recvId s.recvBuf with
      | wait =>
          rw [packetLoop_of_wait ha, packetLoop_of_wait (s := { s with packId := packId }) ha]
      | reject e =>
          rw [packetLoop_of_reject ha, packetLoop_of_reject (s := { s with packId := packId }) ha]
          by_cases he : e = .dataPadding
          · rw [if_pos he, if_pos he]
          · rw [if_neg he, if_neg he]
      | accept k payload next =>
          have hpos := (protocolReader P s.params).used_pos (s := .stream s.identity s.recvId) ha
          have hle := (protocolReader P s.params).used_le (s := .stream s.identity s.recvId) ha
          rw [packetLoop_of_accept ha, packetLoop_of_accept (s := { s with packId := packId }) ha]
          exact ih (s.recvBuf.drop k).length (by rw [List.length_drop]; omega) (out ++ payload)
            { s with recvId := s.recvId + 1, recvBuf := s.recvBuf.drop k } rfl

end AuthAes128Md5

namespace SessionOp

def isDecrypt : SessionOp → Bool
  | decrypt _ => true
  | encrypt _ => false

def isEncrypt (op : SessionOp) : Bool := !op.isDecrypt

end SessionOp

namespace ServerSession

/-- The inputs of the `decrypt` calls of a run, in order. -/
def segments : List SessionOp → List (List UInt8)
  | [] => []
  | .decrypt raw :: ops => raw :: segments ops
  | .encrypt _ :: ops => segments ops

/-- The results of the `decrypt` calls of a run. -/
def decrypted (P : Primitives) : ServerSession → List SessionOp →
    List (Outcome CodecError (List UInt8))
  | _, [] => []
  | s, .decrypt raw :: ops =>
      ((decrypt P raw).run s).1 :: decrypted P ((decrypt P raw).run s).2 ops
  | s, .encrypt plaintext :: ops => decrypted P ((encrypt P plaintext).run s).2 ops

theorem filter_isDecrypt (ops : List SessionOp) :
    ops.filter SessionOp.isDecrypt = (segments ops).map .decrypt := by
  induction ops with
  | nil => rfl
  | cons op ops ih =>
      cases op with
      | decrypt raw => exact congrArg (SessionOp.decrypt raw :: ·) ih
      | encrypt plaintext => exact ih

theorem filter_isEncrypt (ops : List SessionOp) :
    ops.filter SessionOp.isEncrypt = (plaintexts ops).map .encrypt := by
  induction ops with
  | nil => rfl
  | cons op ops ih =>
      cases op with
      | decrypt raw => exact ih
      | encrypt plaintext => exact congrArg (SessionOp.encrypt plaintext :: ·) ih

theorem decrypted_eq_observe (s : ServerSession) (ops : List SessionOp) :
    decrypted P s ops = observe (fun op s => (perform P op).run s) SessionOp.isDecrypt s ops := by
  induction ops generalizing s with
  | nil => rfl
  | cons op ops ih =>
      cases op with
      | decrypt raw =>
          rw [decrypted, observe_seen rfl, ih]
          rfl
      | encrypt plaintext =>
          rw [decrypted, observe_hidden rfl, ih]
          rfl

theorem encrypted_eq_observe (s : ServerSession) (ops : List SessionOp) :
    encrypted P s ops = observe (fun op s => (perform P op).run s) SessionOp.isEncrypt s ops := by
  induction ops generalizing s with
  | nil => rfl
  | cons op ops ih =>
      cases op with
      | decrypt raw =>
          rw [encrypted, observe_hidden rfl, ih]
          rfl
      | encrypt plaintext =>
          rw [encrypted, observe_seen rfl, ih]
          rfl

/-- What a `decrypt` call comes to on an open receive side. -/
def receive (P : Primitives) (decryptor : StreamCipher) (protocol : AuthAes128Md5)
    (raw : List UInt8) : Outcome CodecError (List UInt8) × StreamCipher × AuthAes128Md5 :=
  if raw = [] then (.ok [], decryptor, protocol)
  else
    let call := AuthAes128Md5.packetLoop P [] (protocol.extendRecv (decryptor.process P raw).1)
    (call.1, (decryptor.process P raw).2, call.2)

theorem receive_packId (decryptor : StreamCipher) (protocol : AuthAes128Md5) (packId : UInt32)
    (raw : List UInt8) :
    receive P decryptor { protocol with packId := packId } raw =
      ((receive P decryptor protocol raw).1, (receive P decryptor protocol raw).2.1,
        { (receive P decryptor protocol raw).2.2 with packId := packId }) := by
  unfold receive
  by_cases hempty : raw = []
  · simp only [if_pos hempty]
  · have hloop := AuthAes128Md5.packetLoop_packId (P := P) []
      (protocol.extendRecv (decryptor.process P raw).1) packId
    have hextend : { protocol with packId := packId }.extendRecv (decryptor.process P raw).1 =
        { protocol.extendRecv (decryptor.process P raw).1 with packId := packId } := rfl
    simp only [if_neg hempty, hextend, hloop]

/-- After the header, receiving keeps the keys and the user. -/
theorem receive_keeps (decryptor : StreamCipher) (protocol : AuthAes128Md5) (raw : List UInt8) :
    ∃ recvId recvBuf, (receive P decryptor protocol raw).2.2 =
      { protocol with recvId := recvId, recvBuf := recvBuf } := by
  unfold receive
  by_cases hempty : raw = []
  · rw [if_pos hempty]
    exact ⟨protocol.recvId, protocol.recvBuf, rfl⟩
  · rw [if_neg hempty]
    obtain ⟨recvId, recvBuf, hloop⟩ := AuthAes128Md5.packetLoop_frame (P := P) []
      (protocol.extendRecv (decryptor.process P raw).1)
    exact ⟨recvId, recvBuf, hloop⟩

theorem decrypt_receive {s : ServerSession} {decryptor : StreamCipher} {protocol : AuthAes128Md5}
    (hd : s.decryptor = some decryptor) (hp : s.protocol = some protocol)
    (hheader : protocol.hasRecvHeader = true) (raw : List UInt8) :
    (decrypt P raw).run s = ((receive P decryptor protocol raw).1, { s with
      decryptor := some (receive P decryptor protocol raw).2.1
      protocol := some (receive P decryptor protocol raw).2.2 }) := by
  rw [decrypt_of_some hd]
  unfold receive
  by_cases hempty : raw = []
  · rw [decryptBody, if_pos hempty, if_pos hempty, ← hd, ← hp]
    rfl
  · rw [decryptBody, if_neg hempty, if_neg hempty]
    simp only [Call.run_get_bind, hd, expect_some, pure_bind, Call.run_modify_bind, onProtocol, hp]
    rw [AuthAes128Md5.serverPostDecrypt_stream hheader]

/-- The two sessions have the same receive side; the packet id belongs to the other one. -/
def ReceivesAlike (s t : ServerSession) : Prop :=
  ∃ decryptor protocol packId, protocol.hasRecvHeader = true ∧
    s.decryptor = some decryptor ∧ s.protocol = some protocol ∧
    t.decryptor = some decryptor ∧ t.protocol = some { protocol with packId := packId }

/-- The two sessions have the same send side; of the protocol it uses a key and an id. -/
def SendsAlike (s t : ServerSession) : Prop :=
  ∃ p q, s.Accepted p ∧ t.Accepted q ∧ p.userKey = q.userKey ∧ p.packId = q.packId ∧
    s.encryptor = t.encryptor ∧ s.sendIv = t.sendIv ∧ s.sendIvEmitted = t.sendIvEmitted

theorem Accepted.receivesAlike {s : ServerSession} {protocol : AuthAes128Md5}
    (h : s.Accepted protocol) : s.ReceivesAlike s := by
  obtain ⟨decryptor, hd⟩ := Option.isSome_iff_exists.mp h.opened
  exact ⟨decryptor, protocol, protocol.packId, h.header, hd, h.protocol_eq, hd, h.protocol_eq⟩

theorem Accepted.sendsAlike {s : ServerSession} {protocol : AuthAes128Md5}
    (h : s.Accepted protocol) : s.SendsAlike s :=
  ⟨protocol, protocol, h, h, rfl, rfl, rfl, rfl, rfl⟩

theorem receive_unwinds :
    Unwinds (fun op s => (perform P op).run s) SessionOp.isDecrypt ReceivesAlike where
  symm := by
    rintro s t ⟨decryptor, protocol, packId, hheader, hsd, hsp, htd, htp⟩
    exact ⟨decryptor, { protocol with packId := packId }, protocol.packId, hheader, htd, htp, hsd,
      hsp⟩
  seen := by
    rintro s t op ⟨decryptor, protocol, packId, hheader, hsd, hsp, htd, htp⟩ hop
    cases op with
    | encrypt plaintext => cases hop
    | decrypt raw =>
        have hleft := decrypt_receive (P := P) hsd hsp hheader raw
        have hright := decrypt_receive (P := P) htd htp hheader raw
        rw [receive_packId] at hright
        obtain ⟨recvId, recvBuf, hkeeps⟩ := receive_keeps (P := P) decryptor protocol raw
        simp only [perform, hleft, hright]
        refine ⟨trivial, _, _, packId, ?_, rfl, rfl, rfl, rfl⟩
        rw [hkeeps]
        exact hheader
  hidden := by
    rintro s t op ⟨decryptor, protocol, packId, hheader, hsd, hsp, htd, htp⟩ hop
    cases op with
    | decrypt raw => cases hop
    | encrypt plaintext =>
        simp only [perform, encrypt_of_protocol hsp]
        exact ⟨decryptor, { protocol with
          packId := protocol.packId + UInt32.ofNat (serverUnits plaintext).length }, packId,
          hheader, hsd, rfl, htd, htp⟩

theorem send_unwinds :
    Unwinds (fun op s => (perform P op).run s) SessionOp.isEncrypt SendsAlike where
  symm := by
    rintro s t ⟨p, q, hp, hq, hkey, hid, henc, hiv, hemitted⟩
    exact ⟨q, p, hq, hp, hkey.symm, hid.symm, henc.symm, hiv.symm, hemitted.symm⟩
  seen := by
    rintro s t op ⟨p, q, hp, hq, hkey, hid, henc, hiv, hemitted⟩ hop
    cases op with
    | decrypt raw => cases hop
    | encrypt plaintext =>
        have hsealed : s.sealed P p plaintext = t.sealed P q plaintext := by
          rw [sealed, sealed, henc, hkey, hid]
        simp only [perform, encrypt_of_protocol hp.protocol_eq, encrypt_of_protocol hq.protocol_eq,
          hsealed, hiv, hemitted]
        refine ⟨trivial, _, _, ⟨hp.opened, rfl, hp.header⟩, ⟨hq.opened, rfl, hq.header⟩, hkey, ?_,
          rfl, rfl, rfl⟩
        rw [hid]
  hidden := by
    rintro s t op ⟨p, q, hp, hq, hkey, hid, henc, hiv, hemitted⟩ hop
    cases op with
    | encrypt plaintext => cases hop
    | decrypt raw =>
        obtain ⟨decryptor, recvId, recvBuf, hstate⟩ := decrypt_accepted (P := P) hp raw
        simp only [perform, hstate]
        exact ⟨_, q, ⟨rfl, rfl, hp.header⟩, hq, hkey, hid, henc, hiv, hemitted⟩

/-- No call changes the user and the keys of a session whose header is accepted. -/
theorem runOps_keys {s : ServerSession} {protocol : AuthAes128Md5} (h : s.Accepted protocol)
    (ops : List SessionOp) :
    ∃ next, (runOps P s ops).2.Accepted next ∧ next.userId = protocol.userId ∧
      next.userKey = protocol.userKey ∧ next.aesKey = protocol.aesKey := by
  induction ops generalizing s protocol with
  | nil => exact ⟨protocol, h, rfl, rfl, rfl⟩
  | cons op ops ih =>
      cases op with
      | decrypt raw =>
          obtain ⟨decryptor, recvId, recvBuf, hstate⟩ := decrypt_accepted (P := P) h raw
          have hnext : ((decrypt P raw).run s).2.Accepted
              { protocol with recvId := recvId, recvBuf := recvBuf } := by
            rw [hstate]
            exact ⟨rfl, rfl, h.header⟩
          obtain ⟨next, hrest, hkeys⟩ := ih hnext
          exact ⟨next, hrest, hkeys⟩
      | encrypt plaintext =>
          have hnext : ((encrypt P plaintext).run s).2.Accepted { protocol with
              packId := protocol.packId + UInt32.ofNat (serverUnits plaintext).length } := by
            rw [encrypt_of_protocol h.protocol_eq]
            exact ⟨h.opened, rfl, h.header⟩
          obtain ⟨next, hrest, hkeys⟩ := ih hnext
          exact ⟨next, hrest, hkeys⟩

/-- The order in which the calls of the two directions are mixed changes no result, and
no call changes whom the session serves. -/
theorem directions_independent {s : ServerSession} {protocol : AuthAes128Md5}
    (h : s.Accepted protocol) :
    (∀ ops ops' : List SessionOp, segments ops = segments ops' →
      plaintexts ops = plaintexts ops' →
      decrypted P s ops = decrypted P s ops' ∧ encrypted P s ops = encrypted P s ops') ∧
    ∀ ops : List SessionOp, ∃ next, (runOps P s ops).2.protocol = some next ∧
      next.userId = protocol.userId ∧ next.userKey = protocol.userKey ∧
      next.aesKey = protocol.aesKey := by
  refine ⟨?_, ?_⟩
  · intro ops ops' hsegments hplaintexts
    refine ⟨?_, ?_⟩
    · rw [decrypted_eq_observe, decrypted_eq_observe]
      apply observe_eq receive_unwinds h.receivesAlike
      rw [filter_isDecrypt, filter_isDecrypt, hsegments]
    · rw [encrypted_eq_observe, encrypted_eq_observe]
      apply observe_eq send_unwinds h.sendsAlike
      rw [filter_isEncrypt, filter_isEncrypt, hplaintexts]
  · intro ops
    obtain ⟨next, haccepted, hkeys⟩ := runOps_keys (P := P) h ops
    exact ⟨next, haccepted.protocol_eq, hkeys⟩

/-- A session that has taken in its header is one whose header is accepted. -/
theorem Took.accepted {s : ServerSession} {wire : List UInt8} {r : Resumable.Drained UInt8 UInt8 Phase}
    {who : Identity} {id : UInt32} (h : s.Took P wire r) (hphase : r.2.1 = .stream who id) :
    ∃ protocol, s.Accepted protocol := by
  obtain ⟨packId, -, hstate⟩ := h.state_eq
  rw [received_streaming packId h.decoded_eq hphase] at hstate
  rw [hstate]
  exact ⟨_, rfl, rfl, rfl⟩

/-- The session of the tests once it has taken in a client's first packet. -/
theorem testSession_accepted : ∃ protocol,
    ((decrypt .standard (ClientCodec.testClient.wire .standard (ClientCodec.testHello 0) [10]
      [])).run ClientCodec.testSession).2.Accepted protocol := by
  have hdec := ClientCodec.testSession_decoded
    (show 35 + ([10] : List UInt8).length < maxPacket by decide)
    (show ∀ u ∈ ([] : List (Padding × List UInt8)), _ from nofun)
  have hstep := decrypt_took ClientCodec.testSession_fresh.took
    (ClientCodec.testClient.wire .standard (ClientCodec.testHello 0) [10] [])
  rw [List.nil_append, hdec] at hstep
  obtain ⟨out, -, -, htook⟩ := hstep
  exact htook.accepted rfl

theorem directions_independent_swap : ∃ protocol,
    ((decrypt .standard (ClientCodec.testClient.wire .standard (ClientCodec.testHello 0) [10]
      [])).run ClientCodec.testSession).2.Accepted protocol ∧
    encrypted .standard ((decrypt .standard (ClientCodec.testClient.wire .standard
        (ClientCodec.testHello 0) [10] [])).run ClientCodec.testSession).2
        [.decrypt [0, 0], .encrypt [1], .decrypt [5]] =
      encrypted .standard ((decrypt .standard (ClientCodec.testClient.wire .standard
        (ClientCodec.testHello 0) [10] [])).run ClientCodec.testSession).2
        [.encrypt [1], .decrypt [0, 0], .decrypt [5]] := by
  obtain ⟨protocol, haccepted⟩ := testSession_accepted
  have hsame := (directions_independent (P := .standard) haccepted).1
    [.decrypt [0, 0], .encrypt [1], .decrypt [5]] [.encrypt [1], .decrypt [0, 0], .decrypt [5]]
    rfl rfl
  exact ⟨protocol, haccepted, hsame.2⟩

end ServerSession

end SsrBackend
