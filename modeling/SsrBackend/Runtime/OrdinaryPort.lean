import SsrBackend.Relay.ServedUser
import SsrBackend.Relay.UdpListener
import SsrBackend.Runtime.Tables
import SsrBackend.Ssr.Attribution
import SsrBackend.Ssr.KeySelection

/-!
An ordinary port under the table that `sync_users` publishes. Both codecs look the uid
of a client up before they look at `is_multi_user`, and the table has every ordinary
user of the node: a client of the port's own password is taken for another user, or
turned away, when its uid happens to be listed.
-/

namespace SsrBackend

open Resumable

variable {P : Primitives}

/-- The chunks of a stream are taken in, and served for a user. -/
structure StreamServed (P : Primitives) (ctx : StreamContext) (s : ServerSession)
    (chunks : List (List UInt8)) (u : Nat) : Prop where
  accepted : ∃ outs : List (List UInt8), (ServerSession.feed P s chunks).1 = outs.map .ok
  identified : (ServerSession.feed P s chunks).2.Identified
  user_eq : (ServerSession.feed P s chunks).2.userId.getD ctx.fallbackUserId = u

/-- A datagram is taken in, and served for a user. -/
def DatagramServed (P : Primitives) (ctx : UdpContext) (tables : UserTables)
    (datagram : List UInt8) (u : Nat) : Prop :=
  ∃ plain id, udpDecryptPacket P ctx.masterKey tables.authUsers ctx.isMultiUser datagram
    ctx.cipherKind = .ok (plain, id) ∧ id.getD ctx.userId = u

namespace ServerSession

theorem received_identified {s : ServerSession} {wire : List UInt8} {packId : UInt32}
    {r : Drained UInt8 UInt8 Phase} (h : s.decoded P wire = .ok r)
    (hidentified : (s.received P wire packId r).Identified) : ∃ who n, r.2.1 = .stream who n := by
  rcases factors_of_drain h with ⟨-, hheader⟩ | ⟨who, n, hphase, -⟩
  · rw [received, hheader] at hidentified
    obtain ⟨decryptor, protocol, hd, hp, hrecv⟩ := hidentified
    split at hp
    · cases hp
    · cases hp
      cases hrecv
  · exact ⟨who, n, hphase⟩

end ServerSession

theorem streamServed_iff {s : ServerSession} (hs : s.Fresh P) (ctx : StreamContext)
    (chunks : List (List UInt8)) (u : Nat) :
    StreamServed P ctx s chunks u ↔ ∃ r who n, s.decoded P chunks.flatten = .ok r ∧
      r.2.1 = .stream who n ∧ who.userId.getD ctx.fallbackUserId = u := by
  constructor
  · rintro ⟨⟨outs, hok⟩, hidentified, huser⟩
    obtain ⟨r, hr, -, hstate⟩ := hs.decoded_of_ok hok
    rw [hstate] at hidentified huser
    obtain ⟨who, n, hphase⟩ := ServerSession.received_identified hr hidentified
    rw [ServerSession.received_userId hr hphase] at huser
    exact ⟨r, who, n, hr, hphase, huser⟩
  · rintro ⟨r, who, n, hr, hphase, huser⟩
    have hspec := hs.feed_spec chunks
    rw [hr] at hspec
    obtain ⟨outs, -, hfeed⟩ := hspec
    refine ⟨⟨outs, by rw [hfeed]⟩, ?_, ?_⟩
    · rw [hfeed, ServerSession.received_streaming 1 hr hphase]
      exact ⟨_, _, rfl, rfl, rfl⟩
    · rw [hfeed, ServerSession.received_userId hr hphase]
      exact huser

/-- The wire bytes of a client's first send. -/
def firstSend (P : Primitives) (kind : CipherKind) (masterKey clientKey iv : List UInt8)
    (hello : Hello) (first : List UInt8) : List UInt8 :=
  ((ClientCodec.new P kind masterKey clientKey iv).clientFirstSend P hello first).1

theorem decoded_firstSend {s : ServerSession} {clientKey iv : List UInt8}
    (hiv : iv.length = s.cipher.ivLen) (hello : Hello) (first : List UInt8) :
    s.decoded P (firstSend P s.cipher s.masterKey clientKey iv hello first) =
      (protocolReader P ⟨s.masterKey, iv, s.users, s.isMultiUser⟩).drain .header
        (ClientCodec.packAuth P s.masterKey iv clientKey hello first) := by
  have hwire : firstSend P s.cipher s.masterKey clientKey iv hello first =
      iv ++ ((s.cipher.stream P s.masterKey iv).process P
        (ClientCodec.packAuth P s.masterKey iv clientKey hello first)).1 := rfl
  rw [hwire, ServerSession.decoded, ServerSession.params, ServerSession.plain, ← hiv,
    List.take_left, List.drop_left, StreamCipher.process_involutive]

/-- Whom an accepted auth packet of a client is attributed to, whatever its key. -/
theorem tcpAccepts_userId (par : Params) {hello : Hello} {clientKey first : List UInt8}
    {id : Option Nat}
    (h : TcpAccepts P par (ClientCodec.packAuth P par.masterKey par.recvIv clientKey hello first)
      id) : id = (par.select par.initial hello.uid.toNat).userId := by
  obtain ⟨r, who, n, hd, hphase, rfl⟩ := (tcpAccepts_iff_drain par _ _).mp h
  rcases factors_of_drain hd with ⟨-, hheader⟩ | ⟨who', n', hphase', ⟨hfac⟩⟩
  · rw [hheader] at hphase
    cases hphase
  · rw [hphase] at hphase'
    cases hphase'
    rw [← hfac.selected, ← hfac.headerUid_eq, ClientCodec.packAuth, ClientCodec.headerUid_authBody]

theorem streamServed_client {s : ServerSession} (hs : s.Fresh P) (ctx : StreamContext)
    {clientKey iv : List UInt8} (hiv : iv.length = s.cipher.ivLen) (hello : Hello)
    (first : List UInt8) {chunks : List (List UInt8)}
    (hchunks : chunks.flatten = firstSend P s.cipher s.masterKey clientKey iv hello first)
    (u : Nat) :
    StreamServed P ctx s chunks u ↔ ∃ id, TcpAccepts P ⟨s.masterKey, iv, s.users, s.isMultiUser⟩
      (ClientCodec.packAuth P s.masterKey iv clientKey hello first) id ∧
        id.getD ctx.fallbackUserId = u := by
  rw [streamServed_iff hs, hchunks, decoded_firstSend hiv]
  constructor
  · rintro ⟨r, who, n, hd, hphase, huser⟩
    exact ⟨who.userId, (tcpAccepts_iff_drain _ _ _).mpr ⟨r, who, n, hd, hphase, rfl⟩, huser⟩
  · rintro ⟨id, haccepts, huser⟩
    obtain ⟨r, who, n, hd, hphase, rfl⟩ := (tcpAccepts_iff_drain _ _ _).mp haccepts
    exact ⟨r, who, n, hd, hphase, huser⟩

/-- The auth packet of a client that has the port's key, on a port that is no carrier. -/
theorem tcpAccepts_own_iff (par : Params) (own : Nat) (haes : P.AesInverts)
    (hmode : par.isMultiUser = 0) (hello : Hello) {first : List UInt8}
    (hsize : 35 + hello.rnd.length + first.length < maxPacket)
    (hfree : ∀ userKey, hello.uid.toNat = own → par.users[hello.uid.toNat]? = some userKey →
      userKey ≠ par.masterKey → Unsigned P userKey
        (ClientCodec.packAuth P par.masterKey par.recvIv par.masterKey hello first)) :
    (∃ id, TcpAccepts P par (ClientCodec.packAuth P par.masterKey par.recvIv par.masterKey hello
        first) id ∧ id.getD own = own) ↔
      ∀ userKey, par.users[hello.uid.toNat]? = some userKey →
        hello.uid.toNat = own ∧ userKey = par.masterKey := by
  have hnot : ¬par.isMultiUser = 2 := by rw [hmode]; decide
  cases hlookup : par.users[hello.uid.toNat]? with
  | none =>
      have hselect : par.select par.initial hello.uid.toNat = par.initial := by
        simp [Params.select, hlookup, hnot]
      refine iff_of_true ⟨none, ?_, rfl⟩ (by rintro _ ⟨⟩)
      apply (tcpAccepts_client par hello par.masterKey haes hsize (fun h => ?_) none).mpr
      · rw [hselect]
        exact ⟨rfl, rfl⟩
      · rw [hselect] at h
        exact absurd rfl h
  | some userKey =>
      have hselect : par.select par.initial hello.uid.toNat =
          ⟨userKey, some hello.uid.toNat⟩ := by
        simp [Params.select, hlookup]
      constructor
      · rintro ⟨id, haccepts, hown⟩ other heq
        cases heq
        have hid := tcpAccepts_userId par haccepts
        rw [hselect] at hid
        rw [hid, Option.getD_some] at hown
        refine ⟨hown, ?_⟩
        by_contra hne
        have hkeys := (tcpAccepts_client par hello par.masterKey haes hsize (fun _ => by
          rw [hselect]
          exact hfree userKey hown hlookup hne) id).mp haccepts
        rw [hselect] at hkeys
        exact hne hkeys.1
      · intro h
        obtain ⟨hown, hkey⟩ := h userKey rfl
        have hsame : (par.select par.initial hello.uid.toNat).userKey = par.masterKey := by
          rw [hselect]
          exact hkey
        refine ⟨some hello.uid.toNat, ?_, hown⟩
        apply (tcpAccepts_client par hello par.masterKey haes hsize
          (fun h => absurd hsame h) _).mpr
        exact ⟨hsame, by rw [hselect]⟩

/-- The datagram of a client that has the port's key, on a port that is no carrier. -/
theorem datagramServed_own_iff {ctx : UdpContext} {tables : UserTables}
    (hkey : ctx.cipherKind.Takes ctx.masterKey) (hmode : ctx.isMultiUser = 0) {iv : List UInt8}
    (hiv : iv.length = ctx.cipherKind.ivLen) (uid : UInt32) (payload : List UInt8)
    (hfree : ∀ userKey, uid.toNat = ctx.userId → tables.authUsers[uid.toNat]? = some userKey →
      userKey ≠ ctx.masterKey → mac P userKey (payload ++ leBytes 4 uid.toNat) 4 ≠
        mac P ctx.masterKey (payload ++ leBytes 4 uid.toNat) 4) :
    DatagramServed P ctx tables (clientDatagram P ctx.cipherKind ctx.masterKey ctx.masterKey iv uid
        payload) ctx.userId ↔
      ∀ userKey, tables.authUsers[uid.toNat]? = some userKey →
        uid.toNat = ctx.userId ∧ userKey = ctx.masterKey := by
  rw [DatagramServed, udpDecryptPacket_client P tables.authUsers ctx.isMultiUser hkey
    ctx.masterKey payload hiv uid]
  cases hlookup : tables.authUsers[uid.toNat]? with
  | none =>
      simp only [udpSelect, hlookup, hmode, if_true]
      exact iff_of_true ⟨payload, none, by simp, rfl⟩ (by rintro _ ⟨⟩)
  | some userKey =>
      simp only [udpSelect, hlookup]
      constructor
      · rintro ⟨plain, id, hok, hown⟩ other heq
        cases heq
        split at hok
        · cases hok
        · rename_i hmac
          cases hok
          refine ⟨hown, ?_⟩
          by_contra hne
          exact hmac (hfree userKey hown hlookup hne)
      · intro h
        obtain ⟨hown, rfl⟩ := h userKey rfl
        exact ⟨payload, some uid.toNat, by simp, hown⟩

/-- The context that the accept loop of `tcp.rs` gives a connection. -/
def ListenerTask.streamContext (task : ListenerTask) (tables : UserTables) (kind : CipherKind)
    (peerIp peer : String) : StreamContext where
  password := task.password
  fallbackUserId := task.userId
  tables := tables
  enforcement := task.enforcement
  isMultiUser := task.isMultiUser
  cipherKind := kind
  peerIp := peerIp
  peer := peer

/-- What the receive loop of `udp.rs` gives a datagram, besides the tables. -/
def ListenerTask.udpContext (P : Primitives) (task : ListenerTask) (kind : CipherKind) :
    UdpContext where
  userId := task.userId
  masterKey := deriveMasterKey P task.password kind
  enforcement := task.enforcement
  isMultiUser := task.isMultiUser
  cipherKind := kind

namespace BackendRuntime

variable (fromUser : PanelUser → UserPolicy)

/-- Whatever ordinary row has the uid as its user, that is the port's own user, with its key. -/
def UidHarmless (P : Primitives) (users : List PanelUser) (row : PanelUser) (kind : CipherKind)
    (uid : Nat) : Prop :=
  ∀ listed, ordinaryRow? users uid = some listed → uid = row.userId ∧
    deriveUserAuthKey P listed.password = deriveMasterKey P row.password kind

theorem uidHarmless_iff (users : List PanelUser) (rt : BackendRuntime) (row : PanelUser)
    (kind : CipherKind) (uid : Nat) :
    UidHarmless P users row kind uid ↔
      ∀ userKey, (applyUsers P fromUser users rt).tables.authUsers[uid]? = some userKey →
        uid = row.userId ∧ userKey = deriveMasterKey P row.password kind := by
  rw [applyUsers_auth, UidHarmless]
  cases ordinaryRow? users uid with
  | none => simp
  | some listed => simp

/-! ### The listeners of a row -/

section Port

variable (users : List PanelUser) (rt rt' : BackendRuntime) (row : PanelUser) (profile : Profile)
  (kind : CipherKind)

/-- A connection to the port of a row, under the tables of a list. -/
def portStream (P : Primitives) (peerIp peer : String) : StreamContext :=
  (rt'.spawnListener .tcp row profile).1.streamContext (applyUsers P fromUser users rt).tables kind
    peerIp peer

/-- A datagram to the port of a row. -/
def portDatagram (P : Primitives) : UdpContext :=
  (rt'.spawnListener .udp row profile).1.udpContext P kind

theorem portStream_served_iff (haes : P.AesInverts) (hmode : row.isMultiUser = 0)
    (peerIp peer : String) {getrandom : GetRandom} {s : ServerSession}
    (hnew : ServerSession.new P row.password (applyUsers P fromUser users rt).tables.authUsers
      row.isMultiUser kind getrandom = .ok s)
    {iv : List UInt8} (hiv : iv.length = kind.ivLen) (hello : Hello) {first : List UInt8}
    (hsize : 35 + hello.rnd.length + first.length < maxPacket) {chunks : List (List UInt8)}
    (hchunks : chunks.flatten = firstSend P kind (deriveMasterKey P row.password kind)
      (deriveMasterKey P row.password kind) iv hello first)
    (hfree : ∀ userKey, hello.uid.toNat = row.userId →
      (applyUsers P fromUser users rt).tables.authUsers[hello.uid.toNat]? = some userKey →
      userKey ≠ deriveMasterKey P row.password kind →
      Unsigned P userKey (ClientCodec.packAuth P (deriveMasterKey P row.password kind) iv
        (deriveMasterKey P row.password kind) hello first)) :
    StreamServed P (portStream fromUser users rt rt' row profile kind P peerIp peer) s chunks
        row.userId ↔
      UidHarmless P users row kind hello.uid.toNat := by
  obtain ⟨hfresh, hcipher, hkey, husers, hmulti⟩ := ServerSession.fresh_of_new hnew
  have hwire : chunks.flatten = firstSend P s.cipher s.masterKey
      (deriveMasterKey P row.password kind) iv hello first := by
    rw [hcipher, hkey]
    exact hchunks
  rw [uidHarmless_iff fromUser users rt, streamServed_client hfresh _ (by rw [hcipher]; exact hiv)
    hello first hwire, hkey, husers, hmulti]
  exact tcpAccepts_own_iff ⟨_, iv, _, _⟩ row.userId haes hmode hello hsize hfree

theorem portDatagram_served_iff (hmode : row.isMultiUser = 0) {iv : List UInt8}
    (hiv : iv.length = kind.ivLen) (uid : UInt32) (payload : List UInt8)
    (hfree : ∀ userKey, uid.toNat = row.userId →
      (applyUsers P fromUser users rt).tables.authUsers[uid.toNat]? = some userKey →
      userKey ≠ deriveMasterKey P row.password kind →
      mac P userKey (payload ++ leBytes 4 uid.toNat) 4 ≠
        mac P (deriveMasterKey P row.password kind) (payload ++ leBytes 4 uid.toNat) 4) :
    DatagramServed P (portDatagram rt' row profile kind P)
        (applyUsers P fromUser users rt).tables
        (clientDatagram P kind (deriveMasterKey P row.password kind)
          (deriveMasterKey P row.password kind) iv uid payload) row.userId ↔
      UidHarmless P users row kind uid.toNat := by
  have htakes : (portDatagram rt' row profile kind P).cipherKind.Takes
      (portDatagram rt' row profile kind P).masterKey :=
    CipherKind.takes_of_length (by simp [portDatagram, ListenerTask.udpContext, deriveMasterKey])
  rw [uidHarmless_iff fromUser users rt]
  exact datagramServed_own_iff htakes hmode hiv uid payload hfree

/-- On a port that is no carrier, a client of the port's password is served for the port's own
user exactly when its uid is harmless, on TCP and on UDP. -/
theorem ordinary_port_served_iff (haes : P.AesInverts) (hmode : row.isMultiUser = 0)
    (peerIp peer : String) {getrandom : GetRandom} {s : ServerSession}
    (hnew : ServerSession.new P row.password (applyUsers P fromUser users rt).tables.authUsers
      row.isMultiUser kind getrandom = .ok s)
    {iv iv' : List UInt8} (hiv : iv.length = kind.ivLen) (hiv' : iv'.length = kind.ivLen)
    (hello : Hello) {first : List UInt8} (payload : List UInt8)
    (hsize : 35 + hello.rnd.length + first.length < maxPacket) {chunks : List (List UInt8)}
    (hchunks : chunks.flatten = firstSend P kind (deriveMasterKey P row.password kind)
      (deriveMasterKey P row.password kind) iv hello first)
    (htcp : ∀ userKey, hello.uid.toNat = row.userId →
      (applyUsers P fromUser users rt).tables.authUsers[hello.uid.toNat]? = some userKey →
      userKey ≠ deriveMasterKey P row.password kind →
      Unsigned P userKey (ClientCodec.packAuth P (deriveMasterKey P row.password kind) iv
        (deriveMasterKey P row.password kind) hello first))
    (hudp : ∀ userKey, hello.uid.toNat = row.userId →
      (applyUsers P fromUser users rt).tables.authUsers[hello.uid.toNat]? = some userKey →
      userKey ≠ deriveMasterKey P row.password kind →
      mac P userKey (payload ++ leBytes 4 hello.uid.toNat) 4 ≠
        mac P (deriveMasterKey P row.password kind) (payload ++ leBytes 4 hello.uid.toNat) 4) :
    (StreamServed P (portStream fromUser users rt rt' row profile kind P peerIp peer) s chunks
        row.userId ↔ UidHarmless P users row kind hello.uid.toNat) ∧
    (DatagramServed P (portDatagram rt' row profile kind P)
        (applyUsers P fromUser users rt).tables
        (clientDatagram P kind (deriveMasterKey P row.password kind)
          (deriveMasterKey P row.password kind) iv' hello.uid payload) row.userId ↔
      UidHarmless P users row kind hello.uid.toNat) :=
  ⟨portStream_served_iff fromUser users rt rt' row profile kind haes hmode peerIp peer hnew hiv hello
      hsize hchunks htcp,
    portDatagram_served_iff fromUser users rt rt' row profile kind hmode hiv' hello.uid payload hudp⟩

end Port

/-! ### Two ordinary users -/

def zeroIv : GetRandom := fun n => .ok (Vector.replicate n 0)

def firstRow : PanelUser := sampleRow 1 443 "a" 0

def twoUsers : List PanelUser := [firstRow, sampleRow 2 444 "b" 0]

/-- The master key of the first user's port. -/
def firstKey : List UInt8 := deriveMasterKey .standard "a" .rc4Md5

/-- The first send of a client of the first user's port. -/
def firstClient (uid : UInt32) : List UInt8 :=
  firstSend .standard .rc4Md5 firstKey firstKey (List.replicate 16 7) (ClientCodec.testHello uid)
    [10]

/-- The client's stream is served for user 1. -/
def StreamFirst (s : ServerSession) (uid : UInt32) : Prop :=
  StreamServed .standard (portStream noLimits twoUsers (new sampleConfig) (new sampleConfig)
    firstRow sampleProfile .rc4Md5 .standard "192.0.2.1" "192.0.2.1:4000") s [firstClient uid] 1

/-- The client's datagram is served for user 1. -/
def DatagramFirst (uid : UInt32) : Prop :=
  DatagramServed .standard (portDatagram (new sampleConfig) firstRow sampleProfile .rc4Md5 .standard)
    (applyUsers .standard noLimits twoUsers (new sampleConfig)).tables
    (clientDatagram .standard .rc4Md5 firstKey firstKey (List.replicate 16 7) uid [10]) 1

theorem twoUsers_unlisted : ordinaryRow? twoUsers 9 = none := by
  simp [ordinaryRow?, twoUsers, firstRow, sampleRow, PanelUser.userId]

theorem twoUsers_listed : ordinaryRow? twoUsers 2 = some (sampleRow 2 444 "b" 0) := by
  simp [ordinaryRow?, twoUsers, firstRow, sampleRow, PanelUser.userId]

theorem new_zeroIv : ∃ s, ServerSession.new .standard firstRow.password
    (applyUsers .standard noLimits twoUsers (new sampleConfig)).tables.authUsers
    firstRow.isMultiUser .rc4Md5 zeroIv = .ok s := by
  rw [ServerSession.new_spec]
  exact ⟨_, rfl⟩

theorem firstClient_flatten (uid : UInt32) :
    [firstClient uid].flatten = firstSend .standard .rc4Md5
      (deriveMasterKey .standard firstRow.password .rc4Md5)
      (deriveMasterKey .standard firstRow.password .rc4Md5) (List.replicate 16 7)
      (ClientCodec.testHello uid) [10] := by
  rw [List.flatten_cons, List.flatten_nil, List.append_nil]
  rfl

theorem firstClient_size (uid : UInt32) :
    35 + (ClientCodec.testHello uid).rnd.length + ([10] : List UInt8).length < maxPacket := by
  have hbound : 36 < maxPacket := by decide
  exact hbound

theorem firstClient_iv :
    (List.replicate 16 7 : List UInt8).length = CipherKind.rc4Md5.ivLen := List.length_replicate

/-- The uid 9 is nobody's. -/
theorem ordinary_port_unlisted : ∃ s, StreamFirst s 9 ∧ DatagramFirst 9 := by
  obtain ⟨s, hnew⟩ := new_zeroIv
  have hharmless : UidHarmless .standard twoUsers firstRow .rc4Md5
      (ClientCodec.testHello 9).uid.toNat := by
    intro listed hlisted
    have hnone : ordinaryRow? twoUsers 9 = some listed := hlisted
    rw [twoUsers_unlisted] at hnone
    cases hnone
  obtain ⟨htcp, hudp⟩ := ordinary_port_served_iff noLimits twoUsers (new sampleConfig)
    (new sampleConfig) firstRow sampleProfile .rc4Md5 Primitives.standard_aesInverts rfl
    "192.0.2.1" "192.0.2.1:4000" hnew firstClient_iv firstClient_iv (ClientCodec.testHello 9) [10]
    (firstClient_size 9) (firstClient_flatten 9)
    (fun _ h => absurd h (by decide)) (fun _ h => absurd h (by decide))
  exact ⟨s, htcp.mpr hharmless, hudp.mpr hharmless⟩

/-- The uid 2 is another user's. -/
theorem listed_uid_not_served :
    (∃ s, ServerSession.new .standard firstRow.password
        (applyUsers .standard noLimits twoUsers (new sampleConfig)).tables.authUsers
        firstRow.isMultiUser .rc4Md5 zeroIv = .ok s ∧ ¬StreamFirst s 2) ∧ ¬DatagramFirst 2 := by
  have hharmful : ¬UidHarmless .standard twoUsers firstRow .rc4Md5
      (ClientCodec.testHello 2).uid.toNat := by
    intro hharmless
    have hown := (hharmless _ twoUsers_listed).1
    revert hown
    decide
  obtain ⟨s, hnew⟩ := new_zeroIv
  have htcp := portStream_served_iff noLimits twoUsers (new sampleConfig) (new sampleConfig)
    firstRow sampleProfile .rc4Md5 Primitives.standard_aesInverts rfl "192.0.2.1" "192.0.2.1:4000"
    hnew firstClient_iv (ClientCodec.testHello 2) (firstClient_size 2) (firstClient_flatten 2)
    (fun _ h => absurd h (by decide))
  have hudp := portDatagram_served_iff (P := .standard) noLimits twoUsers (new sampleConfig) (new sampleConfig)
    firstRow sampleProfile .rc4Md5 rfl firstClient_iv (2 : UInt32) [10]
    (fun _ h => absurd h (by decide))
  exact ⟨⟨s, hnew, fun h => hharmful (htcp.mp h)⟩, fun h => hharmful (hudp.mp h)⟩

end BackendRuntime

end SsrBackend
