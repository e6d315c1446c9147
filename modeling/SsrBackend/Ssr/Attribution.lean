import SsrBackend.Ssr.SessionDecoding
import SsrBackend.Ssr.UdpPacket

/-!
Whom released payload is attributed to on a carrier with `is_multi_user = 2`.
A uid that is not in the table selects the IV as the MAC and AES key. The IV is
the client's own choice, so the checksum does not have to fail: it fails for a
client that uses any other key, and a client that uses its IV gets through
without a user id. `Carries` says of decrypted bytes that all their MACs verify
with one given user key, without reference to a session or to the table.
-/

namespace SsrBackend

open Resumable

variable {P : Primitives}

theorem Factors.headerUid_eq {par : Params} {stream out : List UInt8} {who : Identity}
    (h : Factors P par stream out who) : headerUid stream = headerUid h.auth := by
  have happ := (h.auth_valid.header.append (h.packets.flatten ++ h.residual)).2
  rw [← List.append_assoc, ← h.stream_eq] at happ
  exact happ

/-- An auth packet that verifies with `userKey` as its user's key. -/
structure AuthKeyed (P : Primitives) (par : Params) (userKey p : List UInt8) : Prop where
  header : HeaderVerified P par p
  lt_max : p.length < maxPacket
  length_field : headerLength P userKey p = p.length
  checksum : mac P userKey (window p 0 (p.length - 4)) 4 = window p (p.length - 4) p.length
  padding : 31 + headerRndLen P userKey p + 4 ≤ p.length

theorem validAuth_iff_keyed {par : Params} {p : List UInt8} :
    ValidAuth P par p ↔ AuthKeyed P par (par.select par.initial (headerUid p)).userKey p :=
  ⟨fun h => ⟨h.header, h.lt_max, h.length_field, h.checksum, h.padding⟩,
    fun h => ⟨h.header, h.lt_max, h.length_field, h.checksum, h.padding⟩⟩

/-- `stream` is an auth packet, data packets under consecutive ids and the start of one
more, every MAC of them verifies with `userKey`, and `payload` is what the packets hold. -/
def Carries (P : Primitives) (par : Params) (userKey stream payload : List UInt8) : Prop :=
  ∃ (auth : List UInt8) (packets : List (List UInt8)) (residual : List UInt8),
    stream = auth ++ packets.flatten ++ residual ∧ AuthKeyed P par userKey auth ∧
    ValidChain P userKey 1 packets ∧
    Unfinished P userKey (1 + UInt32.ofNat packets.length) residual ∧
    payload = authPayload P userKey auth ++ packets.flatMap dataPayload

theorem Factors.carries {par : Params} {stream out : List UInt8} {who : Identity}
    (h : Factors P par stream out who) : Carries P par who.userKey stream out := by
  have hauth := validAuth_iff_keyed.mp h.auth_valid
  rw [h.selected] at hauth
  exact ⟨h.auth, h.packets, h.residual, h.stream_eq, hauth, h.packets_valid,
    h.residual_unfinished, h.out_eq⟩

/-- The reader passes over bytes that carry payload under the key their uid selects. -/
theorem Carries.drain {par : Params} {stream payload : List UInt8}
    (h : Carries P par (par.select par.initial (headerUid stream)).userKey stream payload) :
    ∃ id rest, (protocolReader P par).drain .header stream =
      .ok (payload, .stream (par.select par.initial (headerUid stream)) id, rest) := by
  obtain ⟨auth, packets, residual, hstream, hauth, hchain, hwait, rfl⟩ := h
  have huid : headerUid stream = headerUid auth := by
    rw [hstream, List.append_assoc]
    exact (hauth.header.append _).2
  rw [huid] at hauth hchain hwait ⊢
  have haccept : (protocolReader P par).attempt .header auth = .accept auth.length
      (authPayload P (par.select par.initial (headerUid auth)).userKey auth)
      (.stream (par.select par.initial (headerUid auth)) 1) :=
    headerAttempt_valid (validAuth_iff_keyed.mpr hauth)
  refine ⟨1 + UInt32.ofNat packets.length, residual, ?_⟩
  rw [hstream, List.append_assoc,
    Reader.drain_accept (Reader.accept_append (packets.flatten ++ residual) haccept),
    List.drop_left, drain_chain par hchain residual,
    drain_unfinished par hwait]
  simp only [Except.map, Drained.after, List.append_nil]

theorem drain_carries {par : Params} {stream payload : List UInt8} :
    (∃ who id rest, (protocolReader P par).drain .header stream =
        .ok (payload, .stream who id, rest)) ↔
      Carries P par (par.select par.initial (headerUid stream)).userKey stream payload := by
  constructor
  · rintro ⟨who, id, rest, hd⟩
    rcases factors_of_drain hd with ⟨-, hnone⟩ | ⟨who', id', hphase, ⟨hfac⟩⟩
    · cases hnone
    · have hcarries := hfac.carries
      rw [← hfac.selected, ← hfac.headerUid_eq] at hcarries
      exact hcarries
  · intro h
    obtain ⟨id, rest, hd⟩ := h.drain
    exact ⟨_, id, rest, hd⟩

theorem Carries.headerUid_append {par : Params} {userKey stream payload : List UInt8}
    (h : Carries P par userKey stream payload) (more : List UInt8) :
    headerUid (stream ++ more) = headerUid stream := by
  obtain ⟨auth, packets, residual, rfl, hauth, -⟩ := h
  rw [List.append_assoc, List.append_assoc, List.append_assoc, (hauth.header.append _).2,
    (hauth.header.append _).2]

theorem Carries.length {par : Params} {userKey stream payload : List UInt8}
    (h : Carries P par userKey stream payload) : 35 ≤ stream.length := by
  obtain ⟨auth, packets, residual, rfl, hauth, -⟩ := h
  have hpad := hauth.padding
  rw [List.append_assoc, List.length_append]
  omega

/-- Between `before` and `after` packets with payload have come in complete, in a
stream whose MACs all verify with `userKey`. -/
def Delivers (P : Primitives) (par : Params) (userKey before after : List UInt8) : Prop :=
  ∃ payload, payload ≠ [] ∧ Carries P par userKey after payload ∧
    ¬ Carries P par userKey before payload

/-- A decrypted datagram whose trailer MAC verifies with `userKey`. -/
def DatagramKeyed (P : Primitives) (userKey body : List UInt8) : Prop :=
  8 ≤ body.length ∧
    mac P userKey (body.take (body.length - 4)) 4 = body.drop (body.length - 4)

theorem datagramKeyed_client {userKey iv : List UInt8} {cipher : CipherKind}
    (hiv : iv.length = cipher.ivLen) (key masterKey payload : List UInt8) (uid : UInt32) :
    DatagramKeyed P key (udpBody P masterKey
        (clientDatagram P cipher masterKey userKey iv uid payload) cipher) ↔
      mac P key (payload ++ leBytes 4 uid.toNat) 4 =
        mac P userKey (payload ++ leBytes 4 uid.toNat) 4 := by
  rw [udpBody_client P cipher masterKey userKey payload hiv]
  generalize htail : mac P userKey (payload ++ leBytes 4 uid.toNat) 4 = tail
  have htail4 : tail.length = 4 := by rw [← htail, length_mac P _ _ (by omega)]
  have hlen : (payload ++ leBytes 4 uid.toNat ++ tail).length - 4 =
      (payload ++ leBytes 4 uid.toNat).length := by
    rw [List.length_append, htail4, Nat.add_sub_cancel]
  rw [DatagramKeyed, hlen, List.take_left, List.drop_left, and_iff_right]
  rw [List.length_append, List.length_append, length_leBytes, htail4]
  omega

theorem Params.select_unlisted {par : Params} {uid : Nat} (hmulti : par.isMultiUser = 2)
    (hnot : uid ∉ par.users) : par.select par.initial uid = ⟨par.recvIv, none⟩ := by
  simp only [select, Std.HashMap.getElem?_eq_none hnot, if_pos hmulti]

theorem Params.select_listed (par : Params) (uid : Nat) :
    (∃ u, (par.select par.initial uid).userId = some u ∧ u ∈ par.users) ↔ uid ∈ par.users := by
  constructor
  · rintro ⟨u, hu, hlisted⟩
    rw [← (select_userId hu).1]
    exact hlisted
  · intro hlisted
    refine ⟨uid, ?_, hlisted⟩
    obtain ⟨userKey, hkey⟩ := Option.isSome_iff_exists.mp
      (Std.HashMap.isSome_getElem?_iff_mem.mpr hlisted)
    simp only [select, hkey]

theorem udpSelect_listed (masterKey : List UInt8) (users : Users) (isMultiUser : Int)
    (recvIv : List UInt8) (uid : Nat) :
    (∃ u, (udpSelect masterKey users isMultiUser recvIv uid).userId = some u ∧ u ∈ users) ↔
      uid ∈ users := by
  cases hkey : users[uid]? with
  | some userKey =>
      have hlisted : uid ∈ users := Std.HashMap.isSome_getElem?_iff_mem.mp (by rw [hkey]; rfl)
      simp only [udpSelect, hkey]
      exact ⟨fun _ => hlisted, fun h => ⟨uid, rfl, h⟩⟩
  | none =>
      have hnot : uid ∉ users := by
        rw [← Std.HashMap.isSome_getElem?_iff_mem, hkey]
        simp
      simp only [udpSelect, hkey]
      constructor
      · rintro ⟨u, hu, -⟩
        split at hu <;> cases hu
      · intro hlisted
        exact absurd hlisted hnot

theorem udpSelect_unlisted {masterKey recvIv : List UInt8} {users : Users} {isMultiUser : Int}
    {uid : Nat} (hmulti : isMultiUser = 2) (hnot : uid ∉ users) :
    udpSelect masterKey users isMultiUser recvIv uid = ⟨recvIv, none⟩ := by
  simp only [udpSelect, Std.HashMap.getElem?_eq_none hnot, hmulti]
  rfl

namespace ServerSession

/-- A call that releases payload has accepted the auth packet, and the session
reports whom the uid of that packet selects. -/
theorem userId_of_release {s : ServerSession} (hs : s.Fresh P) (chunks : List (List UInt8))
    {raw out : List UInt8} (hok : ((decrypt P raw).run (feed P s chunks).2).1 = .ok out)
    (hout : out ≠ []) :
    ((decrypt P raw).run (feed P s chunks).2).2.userId =
      ((s.params (chunks.flatten ++ raw)).select (s.params (chunks.flatten ++ raw)).initial
        (headerUid (s.plain P (chunks.flatten ++ raw)).1)).userId := by
  rcases feed_reaches hs chunks with ⟨r, hr, hstate⟩ | hstuck
  · have hstep := decrypt_received hs.masterKey_length (fun _ => rfl) hr raw
    rw [← hstate] at hstep
    cases hd : s.decoded P (chunks.flatten ++ raw) with
    | error e =>
        rw [hd] at hstep
        rw [hstep.1] at hok
        cases hok
    | ok r' =>
        rw [hd] at hstep
        obtain ⟨out', hr', hcall⟩ := hstep
        rw [hcall] at hok ⊢
        cases hok
        rcases factors_of_drain hd with ⟨-, hnone⟩ | ⟨who, id, hphase, ⟨hfac⟩⟩
        · rw [hnone] at hr'
          exact absurd (List.append_eq_nil_iff.mp hr'.symm).2 hout
        · rw [received_userId hd hphase, hfac.headerUid_eq, hfac.selected]
  · rcases decrypt_stuck hstuck raw with ⟨-, hcall⟩ | ⟨e, herr, -⟩
    · rw [hcall] at hok
      cases hok
      exact absurd rfl hout
    · rw [herr] at hok
      cases hok

/-- What the bytes before a call carry, said with the parameters of the bytes after it. -/
theorem carries_before (s : ServerSession) (before raw payload : List UInt8) :
    Carries P (s.params (before ++ raw))
        ((s.params (before ++ raw)).select (s.params (before ++ raw)).initial
          (headerUid (s.plain P (before ++ raw)).1)).userKey (s.plain P before).1 payload ↔
      ∃ who id rest, s.decoded P before = .ok (payload, .stream who id, rest) := by
  by_cases hlong : s.cipher.ivLen ≤ before.length
  · obtain ⟨hpar, hplain, -⟩ := decoded_append (P := P) hlong raw
    rw [hpar, hplain]
    constructor
    · intro h
      rw [h.headerUid_append] at h
      exact drain_carries.mpr h
    · intro h
      have hcarries := drain_carries.mp h
      rw [hcarries.headerUid_append]
      exact hcarries
  · constructor
    · intro h
      have h35 := h.length
      rw [plain, StreamCipher.length_process, List.length_drop] at h35
      omega
    · rintro ⟨who, id, rest, h⟩
      rw [decoded_of_lt (Nat.lt_of_not_le hlong)] at h
      cases h

/-- A call releases payload exactly when the bytes it decrypts complete packets with
payload, all of whose MACs verify with the key that the uid selects. -/
theorem release_iff_delivers {s : ServerSession} (hs : s.Fresh P)
    (chunks : List (List UInt8)) (raw : List UInt8) :
    (∃ out, ((decrypt P raw).run (feed P s chunks).2).1 = .ok out ∧ out ≠ []) ↔
      Delivers P (s.params (chunks.flatten ++ raw))
        ((s.params (chunks.flatten ++ raw)).select (s.params (chunks.flatten ++ raw)).initial
          (headerUid (s.plain P (chunks.flatten ++ raw)).1)).userKey
        (s.plain P chunks.flatten).1 (s.plain P (chunks.flatten ++ raw)).1 := by
  have hfeed := hs.feed_spec chunks
  have hprefix := decoded_prefix (P := P) s chunks.flatten raw
  cases hd : s.decoded P (chunks.flatten ++ raw) with
  | error e =>
      constructor
      · rintro ⟨out, hok, hout⟩
        exfalso
        rcases feed_reaches hs chunks with ⟨r, hr, hstate⟩ | hstuck
        · have hstep := decrypt_received hs.masterKey_length (fun _ => rfl) hr raw
          rw [hd, ← hstate] at hstep
          cases hstep.1.symm.trans hok
        · rcases decrypt_stuck hstuck raw with ⟨-, hcall⟩ | ⟨e', herr, -⟩
          · rw [hcall] at hok
            cases hok
            exact hout rfl
          · cases herr.symm.trans hok
      · rintro ⟨payload, -, hcarries, -⟩
        obtain ⟨who, id, rest, hok⟩ := drain_carries.mpr hcarries
        cases hd.symm.trans hok
  | ok r' =>
      cases hr : s.decoded P chunks.flatten with
      | error e =>
          rw [hr] at hprefix
          cases hd.symm.trans hprefix
      | ok r =>
          rw [hr] at hfeed
          obtain ⟨outs, -, hstate⟩ := hfeed
          have hstep := decrypt_received hs.masterKey_length (fun _ => rfl) hr raw
          rw [hd] at hstep
          obtain ⟨out, hout, hcall⟩ := hstep
          rw [congrArg Prod.snd hstate, hcall]
          constructor
          · rintro ⟨out', hok, hne⟩
            cases hok
            rcases factors_of_drain hd with ⟨-, hnone⟩ | ⟨who, id, hphase, -⟩
            · rw [hnone] at hout
              exact absurd (List.append_eq_nil_iff.mp hout.symm).2 hne
            refine ⟨r'.1, ?_, drain_carries.mp ⟨who, id, r'.2.2, ?_⟩, ?_⟩
            · intro hnil
              rw [hnil] at hout
              exact hne (List.append_eq_nil_iff.mp hout.symm).2
            · rw [← hphase]
              exact hd
            · intro hbefore
              obtain ⟨who', id', rest, hok'⟩ := (carries_before s _ raw _).mp hbefore
              rw [hr] at hok'
              have hsame := congrArg Prod.fst (Except.ok.inj hok')
              rw [hout] at hsame
              exact hne (List.self_eq_append_right.mp hsame)
          · rintro ⟨payload, hne, hcarries, hnot⟩
            refine ⟨out, rfl, ?_⟩
            rintro rfl
            obtain ⟨who, id, rest, hok⟩ := drain_carries.mpr hcarries
            have hpayload : payload = r'.1 := congrArg Prod.fst (Except.ok.inj (hok.symm.trans hd))
            rw [List.append_nil] at hout
            rw [hpayload, hout] at hne hnot
            rcases factors_of_drain hr with ⟨-, hnone⟩ | ⟨who', id', hphase, -⟩
            · rw [hnone] at hne
              exact hne rfl
            · refine hnot ((carries_before s _ raw _).mpr ⟨who', id', r.2.2, ?_⟩)
              rw [hr, ← hphase]

/-- A client that keys an unlisted uid with its IV is served without a user id. -/
theorem forged_stream_released {s : ServerSession} (hs : s.Fresh P) (hmulti : s.isMultiUser = 2)
    {cipher : CipherKind} (hcipher : s.cipher = cipher) {masterKey : List UInt8}
    (hkey : s.masterKey = masterKey) (haes : P.AesInverts) (hello : Hello)
    (hnot : hello.uid.toNat ∉ s.users) {iv first : List UInt8} (hiv : iv.length = cipher.ivLen)
    (hfirst : 35 + hello.rnd.length + first.length < maxPacket) :
    ((decrypt P ((ClientCodec.new P cipher masterKey iv iv).wire P hello first [])).run s).1 =
        .ok first ∧
      ((decrypt P ((ClientCodec.new P cipher masterKey iv iv).wire P hello first
        [])).run s).2.userId = none := by
  subst hcipher hkey
  have hselect : (Params.mk s.masterKey iv s.users s.isMultiUser).select ⟨s.masterKey, none⟩
      hello.uid.toNat = ⟨iv, none⟩ := Params.select_unlisted hmulti hnot
  have hdec := ClientCodec.decoded_wire s hello iv iv first [] haes hiv
    (congrArg Identity.userKey hselect) hfirst (by simp)
  rw [hselect] at hdec
  generalize (ClientCodec.new P s.cipher s.masterKey iv iv).wire P hello first [] = wire at hdec ⊢
  have hstep := decrypt_received (P := P) hs.masterKey_length (fun _ => rfl) s.decoded_nil wire
  rw [hs.received_nil, List.nil_append, hdec] at hstep
  obtain ⟨out, hout, hcall⟩ := hstep
  have hfirst' : out = first := by simpa using hout.symm
  rw [hcall, hfirst']
  exact ⟨rfl, received_userId hdec rfl⟩

theorem forged_datagram_released {s : ServerSession} (hs : s.Fresh P)
    (hmulti : s.isMultiUser = 2) {cipher : CipherKind} (hcipher : s.cipher = cipher)
    {masterKey : List UInt8} (hkey : s.masterKey = masterKey) (uid : UInt32)
    (hnot : uid.toNat ∉ s.users) {iv : List UInt8} (hiv : iv.length = cipher.ivLen)
    (payload : List UInt8) :
    udpDecryptPacket P s.masterKey s.users s.isMultiUser
      (clientDatagram P cipher masterKey iv iv uid payload) cipher = .ok (payload, none) := by
  subst hcipher hkey
  have hselect : udpSelect s.masterKey s.users s.isMultiUser iv uid.toNat = ⟨iv, none⟩ :=
    udpSelect_unlisted hmulti hnot
  rw [udpDecryptPacket_client P _ _ (CipherKind.takes_of_length hs.masterKey_length) _ _ hiv,
    hselect]
  simp

theorem udp_userId {s : ServerSession} (hs : s.Fresh P) {packet payload : List UInt8}
    {id : Option Nat} (hok : udpDecryptPacket P s.masterKey s.users s.isMultiUser packet s.cipher =
      .ok (payload, id)) :
    id = (udpSelect s.masterKey s.users s.isMultiUser (packet.take s.cipher.ivLen)
      (udpUid (s.plain P packet).1)).userId := by
  rw [udpDecryptPacket_spec P _ _ _ (CipherKind.takes_of_length hs.masterKey_length)] at hok
  split at hok
  · cases hok
  · rw [udpServerPostDecrypt_spec] at hok
    simp only at hok
    split at hok
    · cases hok
    · split at hok
      · cases hok
      · cases hok
        rfl

theorem udpDecryptPacket_keyed {s : ServerSession} (hs : s.Fresh P) (packet : List UInt8) :
    (∃ payload id, udpDecryptPacket P s.masterKey s.users s.isMultiUser packet s.cipher =
        .ok (payload, id)) ↔
      DatagramKeyed P (udpSelect s.masterKey s.users s.isMultiUser (packet.take s.cipher.ivLen)
        (udpUid (s.plain P packet).1)).userKey (s.plain P packet).1 := by
  have hbody : udpBody P s.masterKey packet s.cipher = (s.plain P packet).1 := rfl
  have hlen := length_udpBody P s.masterKey packet s.cipher
  simp only [udpDecryptPacket_ok_iff P s.users s.isMultiUser packet
    (CipherKind.takes_of_length hs.masterKey_length), hbody] at hlen ⊢
  constructor
  · rintro ⟨payload, id, hlong, hmac, -, -⟩
    exact ⟨by omega, hmac.symm⟩
  · rintro ⟨h8, hmac⟩
    exact ⟨_, _, by omega, hmac.symm, rfl, rfl⟩

/-- A call, and a datagram, keep to the listed users exactly when the uid that the
client sent is listed, or the MACs of the decrypted bytes do not all verify with the
client's own IV as the user key (for a call: they verify, and no further packet with
payload is complete). Every unlisted uid can be sent so that they verify. -/
theorem release_listed_iff {s : ServerSession} (hs : s.Fresh P) (hmulti : s.isMultiUser = 2) :
    (∀ (chunks : List (List UInt8)) (raw : List UInt8),
      (∀ out, ((decrypt P raw).run (feed P s chunks).2).1 = .ok out → out ≠ [] →
        ∃ u, ((decrypt P raw).run (feed P s chunks).2).2.userId = some u ∧ u ∈ s.users) ↔
      headerUid (s.plain P (chunks.flatten ++ raw)).1 ∈ s.users ∨
        ¬ Delivers P (s.params (chunks.flatten ++ raw)) (s.params (chunks.flatten ++ raw)).recvIv
          (s.plain P chunks.flatten).1 (s.plain P (chunks.flatten ++ raw)).1) ∧
    (∀ packet : List UInt8,
      (∀ payload id, udpDecryptPacket P s.masterKey s.users s.isMultiUser packet s.cipher =
        .ok (payload, id) → ∃ u, id = some u ∧ u ∈ s.users) ↔
      udpUid (s.plain P packet).1 ∈ s.users ∨
        ¬ DatagramKeyed P (packet.take s.cipher.ivLen) (s.plain P packet).1) ∧
    ∀ (hello : Hello) (iv first : List UInt8), hello.uid.toNat ∉ s.users →
      iv.length = s.cipher.ivLen → 35 + hello.rnd.length + first.length < maxPacket →
      (P.AesInverts →
        ((decrypt P ((ClientCodec.new P s.cipher s.masterKey iv iv).wire P hello first
          [])).run s).1 = .ok first ∧
        ((decrypt P ((ClientCodec.new P s.cipher s.masterKey iv iv).wire P hello first
          [])).run s).2.userId = none) ∧
      udpDecryptPacket P s.masterKey s.users s.isMultiUser
        (clientDatagram P s.cipher s.masterKey iv iv hello.uid first) s.cipher =
        .ok (first, none) := by
  refine ⟨?_, ?_, ?_⟩
  · intro chunks raw
    have hrelease := release_iff_delivers hs chunks raw
    by_cases hlisted : headerUid (s.plain P (chunks.flatten ++ raw)).1 ∈ s.users
    · refine iff_of_true ?_ (Or.inl hlisted)
      intro out hok hout
      rw [userId_of_release hs chunks hok hout]
      exact ((s.params (chunks.flatten ++ raw)).select_listed _).mpr hlisted
    · rw [(s.params (chunks.flatten ++ raw)).select_unlisted hmulti hlisted] at hrelease
      rw [← hrelease]
      constructor
      · rintro hattributed
        refine Or.inr ?_
        rintro ⟨out, hok, hout⟩
        have huser := hattributed out hok hout
        rw [userId_of_release hs chunks hok hout] at huser
        exact hlisted (((s.params (chunks.flatten ++ raw)).select_listed _).mp huser)
      · rintro (h | hnone) out hok hout
        · exact absurd h hlisted
        · exact absurd ⟨out, hok, hout⟩ hnone
  · intro packet
    have hkeyed := udpDecryptPacket_keyed hs packet
    by_cases hlisted : udpUid (s.plain P packet).1 ∈ s.users
    · refine iff_of_true ?_ (Or.inl hlisted)
      intro payload id hok
      rw [udp_userId hs hok]
      exact (udpSelect_listed _ _ _ _ _).mpr hlisted
    · rw [udpSelect_unlisted hmulti hlisted] at hkeyed
      rw [← hkeyed]
      constructor
      · intro hattributed
        refine Or.inr ?_
        rintro ⟨payload, id, hok⟩
        have huser := hattributed payload id hok
        rw [udp_userId hs hok] at huser
        exact hlisted ((udpSelect_listed _ _ _ _ _).mp huser)
      · rintro (h | hnone) payload id hok
        · exact absurd h hlisted
        · exact absurd ⟨payload, id, hok⟩ hnone
  · intro hello iv first hnot hiv hfirst
    exact ⟨fun haes => forged_stream_released hs hmulti rfl rfl haes hello hnot hiv hfirst,
      forged_datagram_released hs hmulti rfl rfl hello.uid hnot hiv first⟩

/-- A carrier with one listed user, as the tests make one. -/
def testCarrier : ServerSession :=
  start .standard .rc4Md5 (List.replicate 16 0) ((∅ : Users).insert 7 [1, 2, 3]) 2
    (List.replicate 16 0)

theorem testCarrier_fresh : testCarrier.Fresh .standard := fresh_start _ _ rfl rfl

theorem testCarrier_cipher : testCarrier.cipher = .rc4Md5 := rfl

theorem testCarrier_masterKey : testCarrier.masterKey = List.replicate 16 0 := rfl

/-- A client with an unlisted uid that uses its IV as the user key. -/
def forgedWire : List UInt8 :=
  (ClientCodec.new .standard .rc4Md5 (List.replicate 16 0) (List.replicate 16 0x42)
    (List.replicate 16 0x42)).wire .standard (ClientCodec.testHello 9) [10] []

theorem forgedWire_released :
    ((decrypt .standard forgedWire).run testCarrier).1 = .ok [10] ∧
      ((decrypt .standard forgedWire).run testCarrier).2.userId = none := by
  have hnot : (ClientCodec.testHello 9).uid.toNat ∉ testCarrier.users := by
    simp [testCarrier, start, ClientCodec.testHello]
  have hiv : (List.replicate 16 (0x42 : UInt8)).length = CipherKind.rc4Md5.ivLen := rfl
  have hfirst : 35 + (ClientCodec.testHello 9).rnd.length + [(10 : UInt8)].length < maxPacket := by
    decide
  rw [forgedWire]
  exact forged_stream_released testCarrier_fresh rfl testCarrier_cipher testCarrier_masterKey
    Primitives.standard_aesInverts (ClientCodec.testHello 9) hnot hiv hfirst

/-- The MACs under the IV verify and payload is released; a datagram of the same uid
that is signed with the port's own key is not taken. -/
theorem release_listed_iff_carrier :
    (headerUid (testCarrier.plain .standard forgedWire).1 ∉ testCarrier.users ∧
      Delivers .standard (testCarrier.params forgedWire) (testCarrier.params forgedWire).recvIv []
        (testCarrier.plain .standard forgedWire).1) ∧
    ∀ payload id, udpDecryptPacket .standard testCarrier.masterKey testCarrier.users
      testCarrier.isMultiUser (clientDatagram .standard .rc4Md5 (List.replicate 16 0)
        (List.replicate 16 0) (List.replicate 16 0x42) 9 [10]) testCarrier.cipher =
        .ok (payload, id) → ∃ u, id = some u ∧ u ∈ testCarrier.users := by
  -- stated for any session, so that no part of the run is evaluated
  have hcall : ∀ {s : ServerSession} {raw out : List UInt8}, s.Fresh .standard →
      s.isMultiUser = 2 → ((decrypt .standard raw).run s).1 = .ok out → out ≠ [] →
      ((decrypt .standard raw).run s).2.userId = none →
      headerUid (s.plain .standard raw).1 ∉ s.users ∧
        Delivers .standard (s.params raw) (s.params raw).recvIv [] (s.plain .standard raw).1 := by
    intro s raw out hs hmulti hok hout hnone
    have hiff := (release_listed_iff hs hmulti).1 [] raw
    have hnot := hiff.not.mp fun h => by
      obtain ⟨u, hu, -⟩ := h out hok hout
      cases hnone.symm.trans hu
    have hnil : (s.plain .standard []).1 = [] := by
      rw [plain, List.drop_nil, StreamCipher.process_nil]
    rw [not_or, not_not] at hnot
    exact ⟨hnot.1, hnil ▸ hnot.2⟩
  have hmac : mac .standard (List.replicate 16 0x42) ([10] ++ leBytes 4 9) 4 ≠
      mac .standard (List.replicate 16 0) ([10] ++ leBytes 4 9) 4 := by
    decide +kernel
  have hiv : (List.replicate 16 (0x42 : UInt8)).length = CipherKind.rc4Md5.ivLen := rfl
  refine ⟨hcall testCarrier_fresh rfl forgedWire_released.1 (List.cons_ne_nil _ _)
    forgedWire_released.2, ((release_listed_iff testCarrier_fresh rfl).2.1 _).mpr (Or.inr ?_)⟩
  rw [testCarrier_cipher]
  have htake : (clientDatagram .standard .rc4Md5 (List.replicate 16 0) (List.replicate 16 0)
      (List.replicate 16 0x42) 9 [10]).take CipherKind.rc4Md5.ivLen =
      List.replicate 16 0x42 := List.take_left' hiv
  rw [htake]
  exact (datagramKeyed_client hiv _ _ [10] 9).not.mpr hmac

/-- The uid 9 is in no table, and its payload is released all the same. -/
theorem unlisted_uid_released :
    ((decrypt .standard ((ClientCodec.new .standard .rc4Md5 (List.replicate 16 0)
        (List.replicate 16 0x42) (List.replicate 16 0x42)).wire .standard
        (ClientCodec.testHello 9) [10] [])).run testCarrier).1 = .ok [10] ∧
      ¬(∃ u, ((decrypt .standard ((ClientCodec.new .standard .rc4Md5 (List.replicate 16 0)
        (List.replicate 16 0x42) (List.replicate 16 0x42)).wire .standard
        (ClientCodec.testHello 9) [10] [])).run testCarrier).2.userId = some u ∧
        u ∈ testCarrier.users) ∧
      udpDecryptPacket .standard testCarrier.masterKey testCarrier.users testCarrier.isMultiUser
        (clientDatagram .standard .rc4Md5 (List.replicate 16 0) (List.replicate 16 0x42)
          (List.replicate 16 0x42) 9 [10]) .rc4Md5 = .ok ([10], none) := by
  have hnot : (9 : UInt32).toNat ∉ testCarrier.users := by simp [testCarrier, start]
  have hforged := forgedWire_released
  rw [forgedWire] at hforged
  refine ⟨hforged.1, ?_, forged_datagram_released testCarrier_fresh rfl testCarrier_cipher
    testCarrier_masterKey 9 hnot rfl [10]⟩
  rintro ⟨u, hu, -⟩
  cases hforged.2.symm.trans hu

end ServerSession

end SsrBackend
