import SsrBackend.Ssr.Session

/-!
The client side of the codec, as the tests of `ssr/mod.rs` build it. The tests
send zero auth data, no random padding and one fixed check byte; a `Hello` and a
`Padding` leave all of these to the caller, and the tests' client is one choice.
-/

namespace SsrBackend

open Call Resumable

variable (P : Primitives)

/-- What a client may choose in its auth packet. -/
structure Hello where
  uid : UInt32
  checkByte : UInt8
  authData : Vector UInt8 12
  rnd : List UInt8

/-- The sending state of a client. -/
structure ClientCodec where
  kind : CipherKind
  masterKey : List UInt8
  userKey : List UInt8
  sendIv : List UInt8
  encryptor : StreamCipher
  packId : UInt32

namespace ClientCodec

/-- The plaintext of the auth packet's AES block. -/
def authBlock (hello : Hello) (payload : List UInt8) : List UInt8 :=
  hello.authData.toList ++
    (leBytes 2 ((7 + 4 + 16 + 4 + payload.length + hello.rnd.length + 4) % 2 ^ 16) ++
      leBytes 2 (hello.rnd.length % 2 ^ 16))

/-- `pack_auth` without the final checksum. -/
def authBody (macKey userKey : List UInt8) (hello : Hello) (payload : List UInt8) : List UInt8 :=
  let encrypted := (P.aesEncrypt (authKey P userKey) (block 16 (authBlock hello payload))).toList
  let packet := leBytes 4 hello.uid.toNat ++ encrypted
  [hello.checkByte] ++ (mac P macKey [hello.checkByte] 6 ++
    (packet ++ (mac P macKey packet 4 ++ (hello.rnd ++ payload))))

def packAuth (masterKey sendIv userKey : List UInt8) (hello : Hello) (payload : List UInt8) :
    List UInt8 :=
  authBody P (sendIv ++ masterKey) userKey hello payload ++
    mac P userKey (authBody P (sendIv ++ masterKey) userKey hello payload) 4

/-- `new_kind`, for any key and IV. -/
def new (kind : CipherKind) (masterKey userKey sendIv : List UInt8) : ClientCodec :=
  ⟨kind, masterKey, userKey, sendIv, kind.stream P masterKey sendIv, 1⟩

def clientFirstSend (c : ClientCodec) (hello : Hello) (payload : List UInt8) :
    List UInt8 × ClientCodec :=
  let r := c.encryptor.process P (packAuth P c.masterKey c.sendIv c.userKey hello payload)
  (c.sendIv ++ r.1, { c with encryptor := r.2 })

def clientSend (c : ClientCodec) (pad : Padding) (payload : List UInt8) :
    List UInt8 × ClientCodec :=
  let r := c.encryptor.process P (framed P c.userKey c.packId (pad.bytes ++ payload))
  (r.1, { c with encryptor := r.2, packId := c.packId + 1 })

def clientSendAll (c : ClientCodec) : List (Padding × List UInt8) → List UInt8
  | [] => []
  | (pad, payload) :: more =>
      (c.clientSend P pad payload).1 ++ clientSendAll (c.clientSend P pad payload).2 more

/-- The wire bytes of a connection: the first send and the sends after it. -/
def wire (c : ClientCodec) (hello : Hello) (first : List UInt8)
    (more : List (Padding × List UInt8)) : List UInt8 :=
  (c.clientFirstSend P hello first).1 ++
    clientSendAll P (c.clientFirstSend P hello first).2 more

theorem clientSendAll_eq (c : ClientCodec) (more : List (Padding × List UInt8)) :
    c.clientSendAll P more =
      (c.encryptor.process P (packUnits P c.userKey c.packId more).flatten).1 := by
  induction more generalizing c with
  | nil => simp [clientSendAll, packUnits]
  | cons u more ih =>
      rw [clientSendAll, ih, packUnits, List.flatten_cons, StreamCipher.process_append]
      rfl

theorem clientSendAll_append (c : ClientCodec) (more last : List (Padding × List UInt8)) :
    ∃ c' : ClientCodec,
      c.clientSendAll P (more ++ last) = c.clientSendAll P more ++ c'.clientSendAll P last := by
  induction more generalizing c with
  | nil => exact ⟨c, rfl⟩
  | cons u more ih =>
      obtain ⟨c', h⟩ := ih (c.clientSend P u.1 u.2).2
      refine ⟨c', ?_⟩
      simp only [List.cons_append, clientSendAll, h, List.append_assoc]

/-- Every packet has its eight bytes of frame. -/
theorem le_length_clientSendAll (c : ClientCodec) (more : List (Padding × List UInt8)) :
    8 * more.length ≤ (c.clientSendAll P more).length := by
  induction more generalizing c with
  | nil => exact Nat.zero_le _
  | cons u more ih =>
      have hrest := ih (c.clientSend P u.1 u.2).2
      have hsend : 8 ≤ (c.clientSend P u.1 u.2).1.length := by
        simp [clientSend]
      simp only [clientSendAll, List.length_append, List.length_cons]
      omega

theorem wire_new (kind : CipherKind) (masterKey userKey sendIv : List UInt8) (hello : Hello)
    (first : List UInt8) (more : List (Padding × List UInt8)) :
    (new P kind masterKey userKey sendIv).wire P hello first more =
      sendIv ++ ((kind.stream P masterKey sendIv).process P
        (packAuth P masterKey sendIv userKey hello first ++
          (packUnits P userKey 1 more).flatten)).1 := by
  rw [wire, clientSendAll_eq, StreamCipher.process_append, ← List.append_assoc]
  rfl

section Auth

variable {P} (macKey userKey : List UInt8) (hello : Hello) (payload : List UInt8)

@[simp] theorem length_authBody :
    (authBody P macKey userKey hello payload).length =
      31 + hello.rnd.length + payload.length := by
  simp only [authBody, List.length_append, List.length_cons, List.length_nil, length_leBytes,
    Vector.length_toList, length_mac P _ _ (show 6 ≤ 16 by omega),
    length_mac P _ _ (show 4 ≤ 16 by omega)]
  omega

/-- The fields of an auth packet, whatever stands behind its body. -/
theorem windows_authBody (tail : List UInt8) :
    window (authBody P macKey userKey hello payload ++ tail) 0 1 = [hello.checkByte] ∧
    window (authBody P macKey userKey hello payload ++ tail) 1 7 =
      mac P macKey [hello.checkByte] 6 ∧
    window (authBody P macKey userKey hello payload ++ tail) 7 11 = leBytes 4 hello.uid.toNat ∧
    window (authBody P macKey userKey hello payload ++ tail) 11 27 =
      (P.aesEncrypt (authKey P userKey) (block 16 (authBlock hello payload))).toList ∧
    window (authBody P macKey userKey hello payload ++ tail) 27 31 =
      mac P macKey (window (authBody P macKey userKey hello payload ++ tail) 7 27) 4 ∧
    window (authBody P macKey userKey hello payload ++ tail) (31 + hello.rnd.length)
      (31 + hello.rnd.length + payload.length) = payload := by
  simp only [authBody]
  have he : (P.aesEncrypt (authKey P userKey)
      (block 16 (authBlock hello payload))).toList.length = 16 := by simp
  have hu : (leBytes 4 hello.uid.toNat).length = 4 := length_leBytes _ _
  have h6 : (mac P macKey [hello.checkByte] 6).length = 6 := length_mac P _ _ (by omega)
  generalize (P.aesEncrypt (authKey P userKey) (block 16 (authBlock hello payload))).toList = e
    at he ⊢
  generalize leBytes 4 hello.uid.toNat = u at hu ⊢
  have h4 : (mac P macKey (u ++ e) 4).length = 4 := length_mac P _ _ (by omega)
  generalize mac P macKey [hello.checkByte] 6 = m6 at h6 ⊢
  generalize hm : mac P macKey (u ++ e) 4 = m4 at h4
  have hue : window ([hello.checkByte] ++ (m6 ++ (u ++ e ++ (m4 ++ (hello.rnd ++ payload)))) ++
      tail) 7 27 = u ++ e :=
    window_of_eq_append ([hello.checkByte] ++ m6) (u ++ e)
      (m4 ++ (hello.rnd ++ (payload ++ tail))) (by simp) (by simp [h6]) (by simp [h6, hu, he])
  rw [hue, hm]
  refine ⟨?_, ?_, ?_, ?_, ?_, ?_⟩
  · exact window_of_eq_append [] [hello.checkByte]
      (m6 ++ (u ++ (e ++ (m4 ++ (hello.rnd ++ (payload ++ tail)))))) (by simp) rfl rfl
  · exact window_of_eq_append [hello.checkByte] m6
      (u ++ (e ++ (m4 ++ (hello.rnd ++ (payload ++ tail))))) (by simp) rfl (by simp [h6])
  · exact window_of_eq_append ([hello.checkByte] ++ m6) u
      (e ++ (m4 ++ (hello.rnd ++ (payload ++ tail)))) (by simp) (by simp [h6]) (by simp [h6, hu])
  · exact window_of_eq_append ([hello.checkByte] ++ m6 ++ u) e
      (m4 ++ (hello.rnd ++ (payload ++ tail))) (by simp) (by simp [h6, hu])
      (by simp [h6, hu, he])
  · exact window_of_eq_append ([hello.checkByte] ++ m6 ++ u ++ e) m4
      (hello.rnd ++ (payload ++ tail)) (by simp) (by simp [h6, hu, he]) (by simp [h6, hu, he, h4])
  · refine window_of_eq_append ([hello.checkByte] ++ m6 ++ u ++ e ++ m4 ++ hello.rnd) payload tail
      (by simp) ?_ ?_
    · simp only [List.length_append, List.length_cons, List.length_nil, h6, hu, he, h4]
    · simp only [List.length_append, List.length_cons, List.length_nil, h6, hu, he, h4]

theorem headerBlock_authBody (haes : P.AesInverts) (tail : List UInt8) :
    headerBlock P userKey (authBody P macKey userKey hello payload ++ tail) =
      authBlock hello payload := by
  have hw := (windows_authBody (P := P) macKey userKey hello payload tail).2.2.2.1
  have hl : (authBlock hello payload).length = 16 := by simp [authBlock]
  rw [headerBlock, hw, block_toList, haes, toList_block hl]

theorem headerUid_authBody (tail : List UInt8) :
    headerUid (authBody P macKey userKey hello payload ++ tail) = hello.uid.toNat := by
  rw [headerUid, (windows_authBody macKey userKey hello payload tail).2.2.1,
    leValue_leBytes_of_lt hello.uid.toNat_lt]

end Auth

section Valid

variable {P} (par : Params) (hello : Hello)

/-- The auth packet of a client with the key its uid selects is accepted. -/
theorem packAuth_valid (haes : P.AesInverts) {payload : List UInt8}
    (hsize : 35 + hello.rnd.length + payload.length < maxPacket) {userKey : List UInt8}
    (hkey : (par.select par.initial hello.uid.toNat).userKey = userKey) :
    headerUid (packAuth P par.masterKey par.recvIv userKey hello payload) = hello.uid.toNat ∧
      ValidAuth P par (packAuth P par.masterKey par.recvIv userKey hello payload) ∧
      authPayload P userKey (packAuth P par.masterKey par.recvIv userKey hello payload) =
        payload := by
  have hmax : maxPacket = 8192 := rfl
  have hmacKey : par.recvIv ++ par.masterKey = par.macKey := rfl
  simp only [packAuth, hmacKey]
  generalize htail : mac P userKey (authBody P par.macKey userKey hello payload) 4 = tail
  have htail4 : tail.length = 4 := by rw [← htail, length_mac P _ _ (by omega)]
  obtain ⟨hcheck, hhead, -, -, hauth, hpay⟩ :=
    windows_authBody (P := P) par.macKey userKey hello payload tail
  have hblock := headerBlock_authBody par.macKey userKey hello payload haes tail
  have hlen : (authBody P par.macKey userKey hello payload ++ tail).length =
      35 + hello.rnd.length + payload.length := by
    rw [List.length_append, length_authBody, htail4]
    omega
  have huid' := headerUid_authBody (P := P) par.macKey userKey hello payload tail
  have hlength : headerLength P userKey (authBody P par.macKey userKey hello payload ++ tail) =
      35 + hello.rnd.length + payload.length := by
    rw [headerLength, hblock, authBlock, window_field _ _ _ (by simp) (by simp),
      leValue_leBytes_of_lt (by omega)]
    omega
  have hrnd : headerRndLen P userKey (authBody P par.macKey userKey hello payload ++ tail) =
      hello.rnd.length := by
    rw [headerRndLen, hblock, authBlock, ← List.append_assoc, window_last _ _ (by simp) (by simp),
      leValue_leBytes_of_lt (by omega)]
    omega
  refine ⟨huid', ⟨⟨?_, ?_, ?_⟩, ?_, ?_, ?_, ?_⟩, ?_⟩
  · omega
  · rw [hcheck, hhead]
  · rw [hauth]
  · omega
  · rw [huid', hkey, hlength, hlen]
  · rw [huid', hkey, hlen, window_head _ _ (by rw [length_authBody]; omega),
      window_last _ _ (by rw [length_authBody]; omega) (by rw [length_authBody]; omega), htail]
  · rw [huid', hkey, hrnd, hlen]
    omega
  · rw [authPayload, hrnd, hlen, show 35 + hello.rnd.length + payload.length - 4 =
      31 + hello.rnd.length + payload.length by omega, hpay]

/-- The reader takes in a client's whole stream. -/
theorem drain_client (haes : P.AesInverts) {userKey first : List UInt8}
    (hkey : (par.select par.initial hello.uid.toNat).userKey = userKey)
    (hfirst : 35 + hello.rnd.length + first.length < maxPacket)
    {more : List (Padding × List UInt8)}
    (hmore : ∀ u ∈ more, 8 + u.1.bytes.length + u.2.length < maxPacket) :
    (protocolReader P par).drain .header
        (packAuth P par.masterKey par.recvIv userKey hello first ++
          (packUnits P userKey 1 more).flatten) =
      .ok (first ++ more.flatMap (fun u => u.2),
        .stream (par.select par.initial hello.uid.toNat) (1 + UInt32.ofNat more.length), []) := by
  obtain ⟨huid, hvalid, hpay⟩ := packAuth_valid par hello haes hfirst hkey
  have hattempt := headerAttempt_valid hvalid
  rw [huid, hkey, hpay] at hattempt
  obtain ⟨hchain, hpays⟩ := packUnits_valid P userKey 1 hmore
  rw [← hkey] at hchain
  have hrest := drain_chain par hchain []
  have hend (who : Identity) (id : UInt32) :
      (protocolReader P par).drain (.stream who id) [] = .ok ([], .stream who id, []) :=
    Reader.drain_wait rfl
  rw [List.append_nil, hkey, length_packUnits, hpays, hend] at hrest
  rw [Reader.drain_accept (R := protocolReader P par) (s := .header)
    (Reader.accept_append _ hattempt), List.drop_left, hrest]
  simp [Except.map, Drained.after]

end Valid

section RoundTrip

variable {P} (s : ServerSession) (hello : Hello)

/-- A session decodes what a client with the key its uid selects has sent. -/
theorem decoded_wire (userKey sendIv first : List UInt8) (more : List (Padding × List UInt8))
    (haes : P.AesInverts) (hiv : sendIv.length = s.cipher.ivLen)
    (hkey : ((Params.mk s.masterKey sendIv s.users s.isMultiUser).select ⟨s.masterKey, none⟩
      hello.uid.toNat).userKey = userKey)
    (hfirst : 35 + hello.rnd.length + first.length < maxPacket)
    (hmore : ∀ u ∈ more, 8 + u.1.bytes.length + u.2.length < maxPacket) :
    s.decoded P ((new P s.cipher s.masterKey userKey sendIv).wire P hello first more) =
      .ok (first ++ more.flatMap (fun u => u.2),
        .stream ((Params.mk s.masterKey sendIv s.users s.isMultiUser).select ⟨s.masterKey, none⟩
          hello.uid.toNat) (1 + UInt32.ofNat more.length), []) := by
  rw [wire_new]
  generalize hbody : packAuth P s.masterKey sendIv userKey hello first ++
    (packUnits P userKey 1 more).flatten = body
  have htake : (sendIv ++ ((s.cipher.stream P s.masterKey sendIv).process P body).1).take
      s.cipher.ivLen = sendIv := by rw [← hiv, List.take_left]
  have hdrop : (sendIv ++ ((s.cipher.stream P s.masterKey sendIv).process P body).1).drop
      s.cipher.ivLen = ((s.cipher.stream P s.masterKey sendIv).process P body).1 := by
    rw [← hiv, List.drop_left]
  rw [ServerSession.decoded, ServerSession.params, ServerSession.plain, htake, hdrop,
    StreamCipher.process_involutive, ← hbody]
  exact drain_client ⟨s.masterKey, sendIv, s.users, s.isMultiUser⟩ hello haes hkey hfirst hmore

/-- A client's stream, in any segmentation, is decoded to its payloads. -/
theorem server_decodes_client (sendIv userKey first : List UInt8)
    (more : List (Padding × List UInt8)) (haes : P.AesInverts) {password : String} {users : Users}
    {isMultiUser : Int} {kind : CipherKind} {getrandom : GetRandom}
    (hs : ServerSession.new P password users isMultiUser kind getrandom = .ok s)
    (hiv : sendIv.length = kind.ivLen)
    (hkey : users[hello.uid.toNat]? = some userKey ∨
      users[hello.uid.toNat]? = none ∧ isMultiUser ≠ 2 ∧
        userKey = deriveMasterKey P password kind)
    (hfirst : 35 + hello.rnd.length + first.length ≤ 8191)
    (hmore : ∀ u ∈ more, 8 + u.1.bytes.length + u.2.length ≤ 8191)
    {chunks : List (List UInt8)}
    (hchunks : chunks.flatten = (new P kind (deriveMasterKey P password kind) userKey sendIv).wire
      P hello first more) :
    ∃ outs : List (List UInt8),
      (ServerSession.feed P s chunks).1 = outs.map .ok ∧
      outs.flatten = first ++ more.flatMap (fun u => u.2) ∧
      (ServerSession.feed P s chunks).2.userId =
        if users[hello.uid.toNat]? = none then none else some hello.uid.toNat := by
  obtain ⟨hfresh, rfl, hmaster, rfl, rfl⟩ := ServerSession.fresh_of_new hs
  rw [← hmaster] at hkey hchunks
  have hselect : ((Params.mk s.masterKey sendIv s.users s.isMultiUser).select ⟨s.masterKey, none⟩
      hello.uid.toNat) = ⟨userKey,
        if s.users[hello.uid.toNat]? = none then none else some hello.uid.toNat⟩ := by
    unfold Params.select
    rcases hkey with hlisted | ⟨hnone, hmulti, rfl⟩
    · simp [hlisted]
    · simp [hnone, hmulti]
  have hmax : maxPacket = 8192 := rfl
  have hdec := decoded_wire s hello userKey sendIv first more haes hiv
    (congrArg Identity.userKey hselect)
    (show 35 + hello.rnd.length + first.length < maxPacket by omega) (fun u hu => by have := hmore u hu; omega)
  rw [hselect, ← hchunks] at hdec
  have hfeed := hfresh.feed_spec chunks
  rw [hdec] at hfeed
  obtain ⟨outs, houts, hfeed⟩ := hfeed
  refine ⟨outs, by rw [hfeed], houts.symm, ?_⟩
  rw [hfeed]
  exact ServerSession.received_userId hdec rfl

/-- The auth packet choices of the tests' client. -/
def testHello (uid : UInt32) : Hello := ⟨uid, 0x11, Vector.replicate 12 0, []⟩

theorem server_decodes_client_listed :
    ∃ s, ServerSession.new .standard "carrier" ((∅ : Users).insert 7 [1, 2, 3]) 2 .rc4Md5
        (fun n => .ok (Vector.replicate n 0)) = .ok s ∧
      ∃ outs : List (List UInt8),
        (ServerSession.feed .standard s [(new .standard .rc4Md5
          (deriveMasterKey .standard "carrier" .rc4Md5) [1, 2, 3] (List.replicate 16 0x42)).wire
            .standard (testHello 7) [10, 11] [(.minimal, [12]), (.long [0, 0], [13])]]).1 =
          outs.map .ok ∧
        outs.flatten = [10, 11, 12, 13] := by
  refine ⟨_, ServerSession.new_spec _ _ _ _ _, ?_⟩
  obtain ⟨outs, hok, hout, -⟩ := server_decodes_client _ (testHello 7) (List.replicate 16 0x42)
    [1, 2, 3] [10, 11] [(.minimal, [12]), (.long [0, 0], [13])] Primitives.standard_aesInverts
    (ServerSession.new_spec (P := .standard) "carrier" ((∅ : Users).insert 7 [1, 2, 3]) 2 .rc4Md5
      (fun n => .ok (Vector.replicate n 0)))
    rfl (Or.inl (by simp [testHello])) (by decide) (by decide) List.flatten_singleton
  exact ⟨outs, hok, hout⟩

end RoundTrip

section Sample

/-- The session of an ordinary port, as the tests make one. -/
def testSession : ServerSession :=
  ServerSession.start .standard .rc4Md5 (List.replicate 16 0) ∅ 0 (List.replicate 16 0)

/-- A client of the same port. -/
def testClient : ClientCodec :=
  new .standard .rc4Md5 (List.replicate 16 0) (List.replicate 16 0) (List.replicate 16 0x42)

theorem testSession_fresh : testSession.Fresh .standard := ServerSession.fresh_start ∅ 0 rfl rfl

theorem testSession_decoded {first : List UInt8} {more : List (Padding × List UInt8)}
    (hfirst : 35 + first.length < maxPacket)
    (hmore : ∀ u ∈ more, 8 + u.1.bytes.length + u.2.length < maxPacket) :
    testSession.decoded .standard (testClient.wire .standard (testHello 0) first more) =
      .ok (first ++ more.flatMap (fun u => u.2),
        .stream ⟨List.replicate 16 0, none⟩ (1 + UInt32.ofNat more.length), []) := by
  have hsel : (Params.mk testSession.masterKey (List.replicate 16 0x42) testSession.users
      testSession.isMultiUser).select ⟨testSession.masterKey, none⟩ (testHello 0).uid.toNat =
      ⟨List.replicate 16 0, none⟩ := by
    simp [Params.select, testSession, ServerSession.start]
  have h := decoded_wire testSession (testHello 0) (List.replicate 16 0) (List.replicate 16 0x42)
    first more Primitives.standard_aesInverts rfl (congrArg Identity.userKey hsel)
    (by simpa [testHello] using hfirst) hmore
  rw [hsel] at h
  exact h

end Sample

end ClientCodec

end SsrBackend
