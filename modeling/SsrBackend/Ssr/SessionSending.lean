import SsrBackend.Ssr.ClientReceive

/-!
What a session sends. Between the `encrypt` calls of a run there may be any
`decrypt` calls, failing ones included; once the auth header is accepted they do
not reach the send side. The wire is the send IV and then one keystream over a
chain of packets with consecutive ids, and both the tests' client and the loop of
the server's own protocol layer read the plaintexts back from it.
-/

namespace SsrBackend

open Resumable

variable {P : Primitives}

/-- A layer in the streaming phase is given by whom it serves and what it has not read. -/
theorem AuthAes128Md5.eq_ofPhase {q : AuthAes128Md5} (hk : q.Keyed P)
    (hh : q.hasRecvHeader = true) :
    q = ofPhase P q.params (.stream q.identity q.recvId) q.recvBuf q.packId := by
  unfold Keyed at hk
  cases q
  simp_all [ofPhase, Phase.identity, identity, params, Phase.hasRecvHeader, Phase.recvId]

namespace ClientReceiver

theorem recvAttempt_framed (recvId : UInt32) (userKey : List UInt8) (id : UInt32)
    {u : List UInt8} (h : u.length ≤ unitLen) :
    recvAttempt recvId (framed P userKey id (Padding.minimal.bytes ++ u)) =
      .accept (framed P userKey id (Padding.minimal.bytes ++ u)).length u (recvId + 1) := by
  have hunit : unitLen = 8100 := rfl
  have hmax : maxPacket = 8192 := rfl
  have hbody : (Padding.minimal.bytes ++ u).length = u.length + 1 := by
    simp [Padding.minimal, Padding.bytes]
  have hlen := length_framed P userKey id (Padding.minimal.bytes ++ u)
  have hlength := packetLength_framed (P := P) userKey id
    (show (Padding.minimal.bytes ++ u).length + 8 < maxPacket by omega)
  have hmark : window (framed P userKey id (Padding.minimal.bytes ++ u)) 4 5 = [1] :=
    (window_framed userKey id 0 1 (by omega)).trans rfl
  have hval : leValue [1] + 4 = 5 := rfl
  have hpay : window (framed P userKey id (Padding.minimal.bytes ++ u)) (4 + 1)
      (4 + (u.length + 1)) = u := by
    rw [window_framed userKey id 1 (u.length + 1) (by omega)]
    exact window_last Padding.minimal.bytes u rfl (by simp [Padding.minimal, Padding.bytes]; omega)
  simp only [recvAttempt, hlength, hlen, hmark, hval, hbody, Nat.lt_irrefl, ite_false,
    show ¬ u.length + 1 + 8 ≤ 4 by omega,
    show ¬(u.length + 1 + 8 < 4 ∨ u.length + 1 + 8 - 4 < 5) by omega]
  rw [show u.length + 1 + 8 - 4 = 4 + (u.length + 1) by omega, show 5 = 4 + 1 from rfl, hpay]

/-- The client's loop passes over what the server has packed. -/
theorem drain_packUnits (userKey : List UInt8) (id recvId : UInt32)
    {us : List (Padding × List UInt8)}
    (h : ∀ u ∈ us, u.1 = Padding.minimal ∧ u.2.length ≤ unitLen) :
    reader.drain recvId (packUnits P userKey id us).flatten =
      .ok (us.flatMap (fun u => u.2), recvId + UInt32.ofNat us.length, []) := by
  induction us generalizing id recvId with
  | nil =>
      have hid : recvId + UInt32.ofNat ([] : List (Padding × List UInt8)).length = recvId := by simp
      rw [hid]
      exact Reader.drain_wait rfl
  | cons u us ih =>
      obtain ⟨hpad, hlen⟩ := h u List.mem_cons_self
      have hone := recvAttempt_framed (P := P) recvId userKey id hlen
      rw [← hpad] at hone
      have hrest := ih (id + 1) (recvId + 1) fun v hv => h v (List.mem_cons_of_mem u hv)
      rw [packUnits, List.flatten_cons,
        Reader.drain_accept (R := reader) (Reader.accept_append _ hone), List.drop_left, hrest,
        List.length_cons, succ_id]
      rfl

end ClientReceiver

namespace ServerSession

/-- A session whose auth header has been accepted by its protocol layer. -/
structure Accepted (s : ServerSession) (protocol : AuthAes128Md5) : Prop where
  opened : s.decryptor.isSome = true
  protocol_eq : s.protocol = some protocol
  header : protocol.hasRecvHeader = true

/-- The plaintexts of a run, in order. -/
def plaintexts : List SessionOp → List (List UInt8)
  | [] => []
  | .decrypt _ :: ops => plaintexts ops
  | .encrypt plaintext :: ops => plaintext :: plaintexts ops

/-- The results of the `encrypt` calls of a run. -/
def encrypted (P : Primitives) : ServerSession → List SessionOp →
    List (Outcome CodecError (List UInt8))
  | _, [] => []
  | s, .decrypt raw :: ops => encrypted P ((decrypt P raw).run s).2 ops
  | s, .encrypt plaintext :: ops =>
      ((encrypt P plaintext).run s).1 :: encrypted P ((encrypt P plaintext).run s).2 ops

/-- After the header, `decrypt` moves the decryptor and the unread bytes only. -/
theorem decrypt_accepted {s : ServerSession} {protocol : AuthAes128Md5}
    (h : s.Accepted protocol) (raw : List UInt8) :
    ∃ decryptor recvId recvBuf, ((decrypt P raw).run s).2 = { s with
      decryptor := some decryptor
      protocol := some { protocol with recvId := recvId, recvBuf := recvBuf } } := by
  obtain ⟨decryptor, hd⟩ := Option.isSome_iff_exists.mp h.opened
  have hp := h.protocol_eq
  simp only [decrypt, Call.run_get_bind, hd]
  by_cases hempty : raw = []
  · rw [decryptBody, if_pos hempty]
    refine ⟨decryptor, protocol.recvId, protocol.recvBuf, ?_⟩
    rw [← hd, ← hp]
    rfl
  · rw [decryptBody, if_neg hempty]
    simp only [Call.run_get_bind, hd, expect_some, pure_bind, Call.run_modify_bind, onProtocol, hp]
    rw [AuthAes128Md5.serverPostDecrypt_stream h.header]
    obtain ⟨recvId, recvBuf, hloop⟩ := AuthAes128Md5.packetLoop_frame (P := P) []
      (protocol.extendRecv (decryptor.process P raw).1)
    rw [hloop]
    exact ⟨_, recvId, recvBuf, rfl⟩

/-- The `encrypt` calls of a run: one IV, then one keystream over all packets. -/
theorem encrypted_spec {s : ServerSession} {protocol : AuthAes128Md5} (h : s.Accepted protocol)
    (ops : List SessionOp) :
    ∃ wires : List (List UInt8), encrypted P s ops = wires.map .ok ∧
      wires.flatten = (if plaintexts ops = [] ∨ s.sendIvEmitted then [] else s.sendIv) ++
        (s.encryptor.process P (packUnits P protocol.userKey protocol.packId
          ((plaintexts ops).flatMap serverUnits)).flatten).1 := by
  induction ops generalizing s protocol with
  | nil => exact ⟨[], rfl, by simp [plaintexts, packUnits]⟩
  | cons op ops ih =>
      cases op with
      | decrypt raw =>
          obtain ⟨decryptor, recvId, recvBuf, hstate⟩ := decrypt_accepted (P := P) h raw
          have hnext : ((decrypt P raw).run s).2.Accepted
              { protocol with recvId := recvId, recvBuf := recvBuf } := by
            rw [hstate]
            exact ⟨rfl, rfl, h.header⟩
          obtain ⟨wires, hok, hwires⟩ := ih hnext
          rw [hstate] at hwires
          exact ⟨wires, hok, hwires⟩
      | encrypt plaintext =>
          have hcall := encrypt_of_protocol (P := P) h.protocol_eq plaintext
          have hnext : ((encrypt P plaintext).run s).2.Accepted { protocol with
              packId := protocol.packId + UInt32.ofNat (serverUnits plaintext).length } := by
            rw [hcall]
            exact ⟨h.opened, rfl, h.header⟩
          obtain ⟨wires, hok, hwires⟩ := ih hnext
          rw [hcall] at hwires
          refine ⟨((if s.sendIvEmitted then [] else s.sendIv) ++
            (s.sealed P protocol plaintext).1) :: wires, ?_, ?_⟩
          · simp only [encrypted, List.map_cons, hok]
            rw [hcall]
          · rw [List.flatten_cons, hwires, plaintexts, List.flatMap_cons, packUnits_append,
              List.flatten_append, StreamCipher.process_append]
            simp [sealed]

/-- The send side of a session that has only received since it was fresh. -/
structure Unsent (P : Primitives) (s : ServerSession) : Prop where
  encryptor_eq : s.encryptor = s.cipher.stream P s.masterKey s.sendIv
  not_emitted : s.sendIvEmitted = false
  protocol : ∀ protocol, s.protocol = some protocol →
    s.decryptor.isSome = true ∧ protocol.Keyed P ∧ protocol.packId = 1

theorem Fresh.unsent {s : ServerSession} (h : s.Fresh P) : s.Unsent P :=
  ⟨h.encryptor_eq, h.not_emitted, by simp [h.protocol_none]⟩

theorem decryptBody_unsent {s : ServerSession} (h : s.Unsent P) (cipherBytes : List UInt8) :
    ((decryptBody P cipherBytes).run s).2.Unsent P := by
  by_cases hempty : cipherBytes = []
  · rw [decryptBody, if_pos hempty]
    exact h
  · rw [decryptBody, if_neg hempty]
    simp only [Call.run_get_bind]
    cases hd : s.decryptor with
    | none => exact h
    | some decryptor =>
        simp only [expect_some, pure_bind, Call.run_modify_bind, onProtocol]
        cases hp : s.protocol with
        | none => exact ⟨h.encryptor_eq, h.not_emitted, by simp⟩
        | some protocol =>
            obtain ⟨-, hk, hone⟩ := h.protocol protocol hp
            have hkeeps := AuthAes128Md5.serverPostDecrypt_keeps hk
              (decryptor.process P cipherBytes).1
            refine ⟨h.encryptor_eq, h.not_emitted, ?_⟩
            intro next hnext
            rw [← Option.some.inj hnext]
            exact ⟨rfl, hkeeps.1, hkeeps.2.trans hone⟩

theorem decrypt_unsent {s : ServerSession} (hkey : s.masterKey.length = s.cipher.keyLen)
    (h : s.Unsent P) (raw : List UInt8) : ((decrypt P raw).run s).2.Unsent P := by
  cases hd : s.decryptor with
  | some decryptor =>
      rw [decrypt_of_some hd]
      exact decryptBody_unsent h raw
  | none =>
      by_cases hlen : (s.recvIvBuf ++ raw).length < s.cipher.ivLen
      · rw [decrypt_of_short hd hlen]
        exact ⟨h.encryptor_eq, h.not_emitted, h.protocol⟩
      · rw [decrypt_of_open hkey hd (Nat.le_of_not_lt hlen)]
        apply decryptBody_unsent
        refine ⟨h.encryptor_eq, h.not_emitted, ?_⟩
        intro protocol hp
        rw [← Option.some.inj hp]
        exact ⟨rfl, rfl, rfl⟩

/-- A run of `decrypt` calls, whatever they return, leaves the send side as it was. -/
theorem feed_unsent {s : ServerSession} (hkey : s.masterKey.length = s.cipher.keyLen)
    (h : s.Unsent P) (chunks : List (List UInt8)) :
    (feed P s chunks).2.Unsent P ∧ (feed P s chunks).2.cipher = s.cipher ∧
      (feed P s chunks).2.masterKey = s.masterKey ∧ (feed P s chunks).2.sendIv = s.sendIv := by
  induction chunks generalizing s with
  | nil => exact ⟨h, rfl, rfl, rfl⟩
  | cons raw chunks ih =>
      have hnext := decrypt_unsent hkey h raw
      obtain ⟨_, _, _, hframe⟩ := decrypt_frame (P := P) hkey raw
      rw [feed]
      rw [hframe] at hnext ⊢
      exact ih hkey hnext

theorem mem_plaintextUnits {texts : List (List UInt8)} {u : Padding × List UInt8}
    (h : u ∈ texts.flatMap serverUnits) : u.1 = Padding.minimal ∧ u.2.length ≤ unitLen := by
  obtain ⟨text, -, hu⟩ := List.mem_flatMap.mp h
  exact (serverUnits_spec text).2 u hu

theorem flatMap_plaintextUnits (texts : List (List UInt8)) :
    ((texts.flatMap serverUnits).flatMap fun u => u.2) = texts.flatten := by
  induction texts with
  | nil => rfl
  | cons text texts ih =>
      rw [List.flatMap_cons, List.flatMap_append, ih, (serverUnits_spec text).1, List.flatten_cons]

/-- The packets of a list of plaintexts: their sizes, and that a receiver accepts them. -/
theorem packUnits_server (userKey : List UInt8) (id : UInt32) (texts : List (List UInt8)) :
    (∀ p ∈ packUnits P userKey id (texts.flatMap serverUnits), 9 ≤ p.length ∧ p.length ≤ 8109) ∧
      ValidChain P userKey id (packUnits P userKey id (texts.flatMap serverUnits)) ∧
      (packUnits P userKey id (texts.flatMap serverUnits)).flatMap dataPayload =
        texts.flatten := by
  have hlt : ∀ u ∈ texts.flatMap serverUnits,
      8 + u.1.bytes.length + u.2.length < maxPacket := by
    intro u hu
    obtain ⟨hpad, hlen⟩ := mem_plaintextUnits hu
    rw [hpad]
    exact minimal_lt hlen
  have hvalid := packUnits_valid (P := P) userKey id hlt
  refine ⟨?_, hvalid.1, hvalid.2.trans (flatMap_plaintextUnits texts)⟩
  intro p hp
  obtain ⟨u, hu, hsize⟩ := length_of_mem_packUnits P hp
  obtain ⟨hpad, hlen⟩ := mem_plaintextUnits hu
  have hone : u.1.bytes.length = 1 := by
    rw [hpad]
    rfl
  have hunit : unitLen = 8100 := rfl
  omega

/-- The client reads the plaintexts back, however the wire is cut. -/
theorem client_reads {cipher : CipherKind} {masterKey : List UInt8}
    (hkey : masterKey.length = cipher.keyLen) (userKey : List UInt8)
    (texts : List (List UInt8)) (recvId : UInt32) {segs : List (List UInt8)}
    (h : (ClientReceiver.plain P cipher masterKey segs.flatten).1 =
      (packUnits P userKey 1 (texts.flatMap serverUnits)).flatten) :
    ∃ got : List (List UInt8), (ClientReceiver.clientRecvAll P
        (ClientReceiver.start cipher masterKey recvId) segs).1 = got.map .ok ∧
      got.flatten = texts.flatten := by
  have hpos : ([] : List UInt8).length < cipher.ivLen := cipher.ivLen_pos
  have hstart : (ClientReceiver.start cipher masterKey recvId).Took P [] ([], recvId, []) := by
    refine ⟨rfl, rfl, ?_⟩
    rw [if_pos (show _ < (ClientReceiver.start cipher masterKey recvId).kind.ivLen from hpos)]
    exact ⟨rfl, rfl⟩
  have hnil : ClientReceiver.reader.drain recvId
      (ClientReceiver.plain P cipher masterKey []).1 = .ok ([], recvId, []) := by
    rw [ClientReceiver.plain_of_lt masterKey hpos, Reader.drain_wait rfl]
  have hunits : ∀ u ∈ texts.flatMap serverUnits, u.1 = Padding.minimal ∧ u.2.length ≤ unitLen :=
    fun u hu => mem_plaintextUnits hu
  have hdrain := ClientReceiver.drain_packUnits (P := P) userKey 1 recvId hunits
  rw [← h, flatMap_plaintextUnits] at hdrain
  obtain ⟨got, hgot, hout⟩ :=
    ClientReceiver.clientRecvAll_took (P := P) hkey hstart hnil segs hdrain
  exact ⟨got, hgot, hout.symm⟩

theorem peer_reads (decryptor : StreamCipher) {peer : AuthAes128Md5} (hk : peer.Keyed P)
    (hh : peer.hasRecvHeader = true) (hid : peer.recvId = 1) (hbuf : peer.recvBuf = [])
    (t : ServerSession) (texts : List (List UInt8)) {segs : List (List UInt8)}
    (h : segs.flatten = (decryptor.process P
      (packUnits P peer.userKey 1 (texts.flatMap serverUnits)).flatten).1) :
    ∃ got : List (List UInt8), (feed P (t.opened decryptor peer) segs).1 = got.map .ok ∧
      got.flatten = texts.flatten := by
  obtain ⟨-, hchain, hpay⟩ := packUnits_server (P := P) peer.userKey 1 texts
  have hend : (protocolReader P peer.params).drain (.stream peer.identity (1 + UInt32.ofNat
      (packUnits P peer.userKey 1 (texts.flatMap serverUnits)).length)) [] =
      .ok ([], .stream peer.identity _, []) := Reader.drain_wait rfl
  have hdrain := drain_chain peer.params
    (show ValidChain P peer.identity.userKey 1 _ from hchain) []
  rw [hend, List.append_nil, hpay] at hdrain
  obtain ⟨got, hout, hgot⟩ := feed_opened peer.params (.stream peer.identity 1) [] rfl t decryptor
    peer.packId segs (by
      rw [List.nil_append, h, StreamCipher.process_involutive]
      exact hdrain)
  have hpeer := AuthAes128Md5.eq_ofPhase hk hh
  rw [hid, hbuf] at hpeer
  rw [← hpeer] at hgot
  refine ⟨got, hgot, ?_⟩
  rw [← hout]
  simp [Drained.after]

/-- The plaintexts of a run reach the tests' client and a peer of the server. -/
theorem encrypt_reaches_client {s : ServerSession} (hs : s.Fresh P) (chunks : List (List UInt8))
    {protocol : AuthAes128Md5} (hp : (feed P s chunks).2.protocol = some protocol)
    (hh : protocol.hasRecvHeader = true) (ops : List SessionOp) :
    ∃ wires packets : List (List UInt8),
      encrypted P (feed P s chunks).2 ops = wires.map .ok ∧
      wires.flatten = (if plaintexts ops = [] then [] else s.sendIv ++
        ((s.cipher.stream P s.masterKey s.sendIv).process P packets.flatten).1) ∧
      (∀ i (hi : i < packets.length), 9 ≤ packets[i].length ∧ packets[i].length ≤ 8109 ∧
        leValue (window packets[i] 0 2) = packets[i].length ∧
        ValidData P protocol.userKey (1 + UInt32.ofNat i) packets[i]) ∧
      (∀ (recvId : UInt32) (segs : List (List UInt8)), segs.flatten = wires.flatten →
        ∃ got : List (List UInt8), (ClientReceiver.clientRecvAll P
            (ClientReceiver.start s.cipher s.masterKey recvId) segs).1 = got.map .ok ∧
          got.flatten = (plaintexts ops).flatten) ∧
      (∀ (peer : AuthAes128Md5) (t : ServerSession), peer.Keyed P →
        peer.hasRecvHeader = true → peer.userKey = protocol.userKey → peer.recvId = 1 →
        peer.recvBuf = [] → ∀ segs : List (List UInt8),
        segs.flatten = wires.flatten.drop s.cipher.ivLen →
        ∃ got : List (List UInt8), (feed P (t.opened (s.cipher.stream P s.masterKey s.sendIv)
            peer) segs).1 = got.map .ok ∧
          got.flatten = (plaintexts ops).flatten) := by
  obtain ⟨hunsent, hcipher, hmaster, hsend⟩ := feed_unsent hs.masterKey_length hs.unsent chunks
  obtain ⟨hopen, -, hone⟩ := hunsent.protocol protocol hp
  obtain ⟨wires, hres, hwires⟩ := encrypted_spec (P := P) ⟨hopen, hp, hh⟩ ops
  obtain ⟨hsizes, hchain, -⟩ := packUnits_server (P := P) protocol.userKey 1 (plaintexts ops)
  rw [hone, hunsent.encryptor_eq, hcipher, hmaster, hsend, hunsent.not_emitted] at hwires
  have hwire : wires.flatten = if plaintexts ops = [] then [] else s.sendIv ++
      ((s.cipher.stream P s.masterKey s.sendIv).process P
        (packUnits P protocol.userKey 1 ((plaintexts ops).flatMap serverUnits)).flatten).1 := by
    by_cases hnone : plaintexts ops = []
    · rw [hwires, if_pos hnone, if_pos (Or.inl hnone), hnone]
      exact congrArg Prod.fst (StreamCipher.process_nil P _)
    · rw [hwires, if_neg hnone, if_neg (by simp [hnone])]
  refine ⟨wires, packUnits P protocol.userKey 1 ((plaintexts ops).flatMap serverUnits), hres,
    ?_, ?_, ?_, ?_⟩
  · exact hwire
  · intro i hi
    have hvalid := hchain.getElem i hi
    have hsize := hsizes _ (List.getElem_mem hi)
    exact ⟨hsize.1, hsize.2, hvalid.length_field, hvalid⟩
  · intro recvId segs hsegs
    apply client_reads hs.masterKey_length protocol.userKey
    rw [hsegs, hwire]
    by_cases hnone : plaintexts ops = []
    · have hpos : ([] : List UInt8).length < s.cipher.ivLen := s.cipher.ivLen_pos
      rw [if_pos hnone, hnone, ClientReceiver.plain_of_lt s.masterKey hpos]
      rfl
    · rw [if_neg hnone, ClientReceiver.plain, ← hs.sendIv_length, List.take_left, List.drop_left,
        StreamCipher.process_involutive]
  · intro peer t hk hhead huser hid hbuf segs hsegs
    apply peer_reads _ hk hhead hid hbuf t
    rw [hsegs, hwire, huser]
    by_cases hnone : plaintexts ops = []
    · rw [if_pos hnone, hnone, List.drop_nil]
      exact (congrArg Prod.fst (StreamCipher.process_nil P _)).symm
    · rw [if_neg hnone, ← hs.sendIv_length, List.drop_left]

theorem encrypt_reaches_client_twice :
    ∃ wires : List (List UInt8),
      encrypted .standard (feed .standard ClientCodec.testSession [ClientCodec.testClient.wire
        .standard (ClientCodec.testHello 0) [10] []]).2
        [.encrypt [1], .decrypt [0, 0], .encrypt []] = wires.map .ok ∧
      ∀ segs : List (List UInt8), segs.flatten = wires.flatten →
        ∃ got : List (List UInt8), (ClientReceiver.clientRecvAll .standard
          (ClientReceiver.start .rc4Md5 (List.replicate 16 0) 1) segs).1 = got.map .ok ∧
          got.flatten = [1] := by
  have hsmall : ∀ u ∈ ([] : List (Padding × List UInt8)),
      8 + u.1.bytes.length + u.2.length < maxPacket := by simp
  have hdec := ClientCodec.testSession_decoded
    (show 35 + ([10] : List UInt8).length < maxPacket by decide) hsmall
  have hfeed := ClientCodec.testSession_fresh.feed_spec
    [ClientCodec.testClient.wire .standard (ClientCodec.testHello 0) [10] []]
  rw [List.flatten_singleton, hdec] at hfeed
  obtain ⟨_, -, hfeed⟩ := hfeed
  have hstate := congrArg ServerSession.protocol
    ((congrArg Prod.snd hfeed).trans (received_streaming 1 hdec rfl))
  obtain ⟨wires, _, hres, -, -, hclient, -⟩ := encrypt_reaches_client
    ClientCodec.testSession_fresh _ hstate rfl [.encrypt [1], .decrypt [0, 0], .encrypt []]
  exact ⟨wires, hres, hclient 1⟩

end ServerSession

end SsrBackend
