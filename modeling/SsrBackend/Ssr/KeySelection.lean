import SsrBackend.Ssr.ClientCodec
import SsrBackend.Ssr.UdpPacket

/-!
Which clients the two codecs take. A client signs with one key, and a codec
accepts it when its own rule selects that key for the client's uid. The rules of
`server_post_decrypt` and `udp_server_post_decrypt` test `is_multi_user`
differently, so the two can part on a uid that no table lists. MACs collide, so
that they do not is assumed of the bytes at hand and not of the function.
-/

namespace SsrBackend

open Resumable

variable {P : Primitives}

/-- A new protocol layer takes `stream` in as an auth packet and reports `id`. -/
def TcpAccepts (P : Primitives) (par : Params) (stream : List UInt8) (id : Option Nat) : Prop :=
  ∃ s out s', (AuthAes128Md5.new P par.masterKey par.recvIv par.users par.isMultiUser :
      Outcome CodecError AuthAes128Md5) = .ok s ∧
    (AuthAes128Md5.serverPostDecrypt P stream).run s = (.ok out, s') ∧
    s'.hasRecvHeader = true ∧ s'.userId = id

def UdpAccepts (P : Primitives) (par : Params) (datagram : List UInt8) (id : Option Nat) : Prop :=
  ∃ payload, udpServerPostDecrypt P par.masterKey par.users par.isMultiUser par.recvIv datagram =
    .ok (payload, id)

/-- The plain bytes of a client's datagram. -/
def clientBody (P : Primitives) (userKey : List UInt8) (uid : UInt32) (payload : List UInt8) :
    List UInt8 :=
  payload ++ leBytes 4 uid.toNat ++ mac P userKey (payload ++ leBytes 4 uid.toNat) 4

/-- No front part of `stream` ends with its own checksum under `key`. -/
def Unsigned (P : Primitives) (key stream : List UInt8) : Prop :=
  ∀ n ≤ stream.length, mac P key (stream.take (n - 4)) 4 ≠ window stream (n - 4) n

section Codec

variable (par : Params) (hello : Hello) (clientKey : List UInt8)

theorem tcpAccepts_iff_drain (stream : List UInt8) (id : Option Nat) :
    TcpAccepts P par stream id ↔
      ∃ r who n, (protocolReader P par).drain .header stream = .ok r ∧ r.2.1 = .stream who n ∧
        who.userId = id := by
  have hspec := AuthAes128Md5.serverPostDecrypt_spec (P := P) par .header [] 1 stream
  rw [List.nil_append] at hspec
  constructor
  · rintro ⟨s, out, s', hnew, hcall, hheader, hid⟩
    rw [AuthAes128Md5.new_eq] at hnew
    rw [← Outcome.ok.inj hnew] at hcall
    cases hd : (protocolReader P par).drain .header stream with
    | error e =>
        rw [hd] at hspec
        have herr := hspec.1
        rw [hcall] at herr
        cases herr
    | ok r =>
        rw [hd] at hspec
        have hstate : s' = AuthAes128Md5.ofPhase P par r.2.1 r.2.2 1 :=
          congrArg Prod.snd (hcall.symm.trans hspec)
        subst hstate
        cases hphase : r.2.1 with
        | header =>
            rw [hphase] at hheader
            cases hheader
        | stream who n =>
            rw [hphase] at hid
            exact ⟨r, who, n, rfl, hphase, hid⟩
  · rintro ⟨r, who, n, hd, hphase, hid⟩
    rw [hd] at hspec
    refine ⟨_, _, _, AuthAes128Md5.new_eq P par, hspec, ?_, ?_⟩
    · rw [hphase]
      rfl
    · rw [hphase]
      exact hid

/-- An auth packet is taken in exactly when the uid selects the client's key. -/
theorem tcpAccepts_client (haes : P.AesInverts) {first : List UInt8}
    (hsize : 35 + hello.rnd.length + first.length < maxPacket)
    (hfree : (par.select par.initial hello.uid.toNat).userKey ≠ clientKey →
      Unsigned P (par.select par.initial hello.uid.toNat).userKey
        (ClientCodec.packAuth P par.masterKey par.recvIv clientKey hello first))
    (id : Option Nat) :
    TcpAccepts P par (ClientCodec.packAuth P par.masterKey par.recvIv clientKey hello first) id ↔
      (par.select par.initial hello.uid.toNat).userKey = clientKey ∧
        id = (par.select par.initial hello.uid.toNat).userId := by
  rw [tcpAccepts_iff_drain]
  by_cases hkey : (par.select par.initial hello.uid.toNat).userKey = clientKey
  · have hdrain := ClientCodec.drain_client par hello haes hkey hsize
      (show ∀ u ∈ ([] : List (Padding × List UInt8)), _ from nofun)
    rw [packUnits, List.flatten_nil, List.append_nil] at hdrain
    rw [hdrain]
    constructor
    · rintro ⟨r, who, n, hr, hphase, rfl⟩
      rw [← Except.ok.inj hr] at hphase
      cases hphase
      exact ⟨hkey, rfl⟩
    · rintro ⟨-, rfl⟩
      exact ⟨_, _, _, rfl, rfl, rfl⟩
  · constructor
    · rintro ⟨r, who, n, hd, hphase, -⟩
      exfalso
      cases ha : headerAttempt P par par.initial
          (ClientCodec.packAuth P par.masterKey par.recvIv clientKey hello first) with
      | wait =>
          rw [Reader.drain_wait (R := protocolReader P par) (s := .header) ha] at hd
          rw [← Except.ok.inj hd] at hphase
          cases hphase
      | reject e =>
          rw [Reader.drain_reject (R := protocolReader P par) (s := .header) ha] at hd
          cases hd
      | accept m out next =>
          obtain ⟨hle, hvalid, -, -, huid⟩ := valid_of_headerAttempt ha
          rw [ClientCodec.packAuth, ClientCodec.headerUid_authBody, ← ClientCodec.packAuth] at huid
          have hsum := hvalid.checksum
          rw [huid, List.length_take, Nat.min_eq_left hle, window_take _ _ (Nat.sub_le m 4),
            window_take _ _ (Nat.le_refl m)] at hsum
          exact hfree hkey m hle hsum
    · rintro ⟨h, -⟩
      exact absurd h hkey

/-- A datagram is taken in exactly when the uid selects the client's key. -/
theorem udpAccepts_client (uid : UInt32) (payload : List UInt8)
    (hfree : (udpSelect par.masterKey par.users par.isMultiUser par.recvIv uid.toNat).userKey ≠
        clientKey →
      mac P (udpSelect par.masterKey par.users par.isMultiUser par.recvIv uid.toNat).userKey
          (payload ++ leBytes 4 uid.toNat) 4 ≠ mac P clientKey (payload ++ leBytes 4 uid.toNat) 4)
    (id : Option Nat) :
    UdpAccepts P par (clientBody P clientKey uid payload) id ↔
      (udpSelect par.masterKey par.users par.isMultiUser par.recvIv uid.toNat).userKey =
          clientKey ∧
        id = (udpSelect par.masterKey par.users par.isMultiUser par.recvIv uid.toNat).userId := by
  rw [UdpAccepts, clientBody, udpServerPostDecrypt_client]
  generalize udpSelect par.masterKey par.users par.isMultiUser par.recvIv uid.toNat = who at hfree ⊢
  by_cases hkey : who.userKey = clientKey
  · simp only [hkey, ne_eq, not_true_eq_false, ite_false, true_and]
    constructor
    · rintro ⟨out, hok⟩
      cases hok
      rfl
    · rintro rfl
      exact ⟨payload, rfl⟩
  · simp only [if_pos (hfree hkey), hkey, false_and, iff_false]
    rintro ⟨out, hok⟩
    cases hok

end Codec

/-- Both codecs take the client in, for the same user, or neither does. -/
def Alike (P : Primitives) (par : Params) (stream datagram : List UInt8) : Prop :=
  (∃ id, TcpAccepts P par stream id ∧ UdpAccepts P par datagram id) ∨
    (∀ id, ¬ TcpAccepts P par stream id) ∧ ∀ id, ¬ UdpAccepts P par datagram id

/-- The codecs part exactly on unlisted uids of the modes other than 0 and 2, when
the client's key is one of the port's key and the IV and not the other. -/
theorem tcp_udp_alike_iff (par : Params) (hello : Hello) (clientKey first payload : List UInt8)
    (haes : P.AesInverts) (hsize : 35 + hello.rnd.length + first.length < maxPacket)
    (htcp : (par.select par.initial hello.uid.toNat).userKey ≠ clientKey →
      Unsigned P (par.select par.initial hello.uid.toNat).userKey
        (ClientCodec.packAuth P par.masterKey par.recvIv clientKey hello first))
    (hudp : (udpSelect par.masterKey par.users par.isMultiUser par.recvIv
        hello.uid.toNat).userKey ≠ clientKey →
      mac P (udpSelect par.masterKey par.users par.isMultiUser par.recvIv hello.uid.toNat).userKey
          (payload ++ leBytes 4 hello.uid.toNat) 4 ≠
        mac P clientKey (payload ++ leBytes 4 hello.uid.toNat) 4) :
    Alike P par (ClientCodec.packAuth P par.masterKey par.recvIv clientKey hello first)
        (clientBody P clientKey hello.uid payload) ↔
      hello.uid.toNat ∈ par.users ∨ par.isMultiUser = 0 ∨ par.isMultiUser = 2 ∨
        (clientKey = par.masterKey ↔ clientKey = par.recvIv) := by
  simp only [Alike, tcpAccepts_client par hello clientKey haes hsize htcp,
    udpAccepts_client par clientKey hello.uid payload hudp]
  clear htcp hudp
  cases hlookup : par.users[hello.uid.toNat]? with
  | some userKey =>
      have hmem : hello.uid.toNat ∈ par.users :=
        Std.HashMap.isSome_getElem?_iff_mem.mp (by rw [hlookup]; rfl)
      simp only [Params.select, udpSelect, hlookup, hmem, true_or, iff_true]
      by_cases hkey : userKey = clientKey
      · exact Or.inl ⟨_, ⟨hkey, rfl⟩, hkey, rfl⟩
      · exact Or.inr ⟨fun id h => hkey h.1, fun id h => hkey h.1⟩
  | none =>
      have hnot : hello.uid.toNat ∉ par.users := by
        rw [← Std.HashMap.isSome_getElem?_iff_mem, hlookup]
        exact Bool.false_ne_true
      simp only [Params.select, Params.initial, udpSelect, hlookup, hnot, false_or]
      have hsame (key : List UInt8) :
          (∃ id : Option Nat, (key = clientKey ∧ id = none) ∧ key = clientKey ∧ id = none) ∨
            (∀ id : Option Nat, ¬(key = clientKey ∧ id = none)) ∧
              ∀ id : Option Nat, ¬(key = clientKey ∧ id = none) := by
        by_cases hkey : key = clientKey
        · exact Or.inl ⟨none, ⟨hkey, rfl⟩, hkey, rfl⟩
        · exact Or.inr ⟨fun id h => hkey h.1, fun id h => hkey h.1⟩
      by_cases h0 : par.isMultiUser = 0
      · simp only [h0, show ¬ (0 : Int) = 2 by decide, ite_true, ite_false, true_or, iff_true]
        exact hsame par.masterKey
      · by_cases h2 : par.isMultiUser = 2
        · simp only [h2, show ¬ (2 : Int) = 0 by decide, ite_true, ite_false, true_or, or_true,
            iff_true]
          exact hsame par.recvIv
        · simp only [h0, h2, ite_false, false_or]
          constructor
          · rintro (⟨id, ⟨hmaster, -⟩, hiv, -⟩ | ⟨hmaster, hiv⟩)
            · exact ⟨fun _ => hiv.symm, fun _ => hmaster.symm⟩
            · exact ⟨fun h => absurd ⟨h.symm, rfl⟩ (hmaster none),
                fun h => absurd ⟨h.symm, rfl⟩ (hiv none)⟩
          · intro hkeys
            by_cases hmaster : par.masterKey = clientKey
            · exact Or.inl ⟨none, ⟨hmaster, rfl⟩, (hkeys.mp hmaster.symm).symm, rfl⟩
            · refine Or.inr ⟨fun id h => hmaster h.1, fun id h => hmaster ?_⟩
              exact (hkeys.mpr h.1.symm).symm

section Sample

/-- A carrier in a mode that is neither 0 nor 2, with one listed user. -/
def sampleParams : Params :=
  ⟨List.replicate 16 0, List.replicate 16 0x42, (∅ : Users).insert 7 [1, 2, 3], 1⟩

/-- The auth packet of a client that takes the listed uid 7 and signs with a key of its own. -/
def strangerPacket : List UInt8 :=
  [17, 25, 108, 50, 150, 43, 163, 7, 0, 0, 0, 32, 135, 218, 94, 129, 232, 244, 166, 24, 14, 128,
    185, 131, 47, 240, 213, 15, 219, 29, 199, 10, 233, 200, 196, 237]

theorem packAuth_stranger : ClientCodec.packAuth .standard sampleParams.masterKey
    sampleParams.recvIv [9] (ClientCodec.testHello 7) [10] = strangerPacket := by
  decide +kernel

theorem strangerPacket_unsigned : Unsigned .standard [1, 2, 3] strangerPacket := by
  rw [Unsigned]
  decide +kernel

theorem tcp_udp_alike_iff_listed :
    Alike .standard sampleParams (ClientCodec.packAuth .standard sampleParams.masterKey
        sampleParams.recvIv [9] (ClientCodec.testHello 7) [10])
      (clientBody .standard [9] 7 [10]) := by
  have hkey : (sampleParams.select sampleParams.initial 7).userKey = [1, 2, 3] := by
    simp [Params.select, sampleParams]
  have hkey' : (udpSelect sampleParams.masterKey sampleParams.users sampleParams.isMultiUser
      sampleParams.recvIv 7).userKey = [1, 2, 3] := by
    simp [udpSelect, sampleParams]
  have hmac : mac .standard [1, 2, 3] ([10] ++ leBytes 4 7) 4 ≠
      mac .standard [9] ([10] ++ leBytes 4 7) 4 := by
    decide +kernel
  apply (tcp_udp_alike_iff sampleParams (ClientCodec.testHello 7) [9] [10] [10]
    Primitives.standard_aesInverts (by decide) (fun _ => ?_) (fun _ => ?_)).mpr
  · left
    simp [sampleParams, ClientCodec.testHello]
  · rw [packAuth_stranger, show (ClientCodec.testHello 7).uid.toNat = 7 from rfl, hkey]
    exact strangerPacket_unsigned
  · rw [show (ClientCodec.testHello 7).uid.toNat = 7 from rfl, hkey']
    exact hmac

/-- The uid 9 is in no table: TCP takes the port's key in mode 1, and UDP does not. -/
theorem mode_one_parts :
    TcpAccepts .standard sampleParams (ClientCodec.packAuth .standard sampleParams.masterKey
        sampleParams.recvIv sampleParams.masterKey (ClientCodec.testHello 9) [10]) none ∧
      ∀ id, ¬ UdpAccepts .standard sampleParams
        (clientBody .standard sampleParams.masterKey 9 [10]) id := by
  have hkey : sampleParams.select sampleParams.initial 9 = sampleParams.initial := by
    simp [Params.select, sampleParams]
  have hkey' : udpSelect sampleParams.masterKey sampleParams.users sampleParams.isMultiUser
      sampleParams.recvIv 9 = ⟨sampleParams.recvIv, none⟩ := by
    simp [udpSelect, sampleParams]
  have hmac : mac .standard sampleParams.recvIv ([10] ++ leBytes 4 9) 4 ≠
      mac .standard sampleParams.masterKey ([10] ++ leBytes 4 9) 4 := by
    decide +kernel
  have hne : sampleParams.recvIv ≠ sampleParams.masterKey := by decide
  refine ⟨?_, ?_⟩
  · apply (tcpAccepts_client sampleParams (ClientCodec.testHello 9) sampleParams.masterKey
      Primitives.standard_aesInverts (by decide) (fun h => ?_) none).mpr
    · exact ⟨congrArg Identity.userKey hkey, (congrArg Identity.userId hkey).symm⟩
    · exact absurd (congrArg Identity.userKey hkey) h
  · intro id h
    have hiff := (udpAccepts_client sampleParams sampleParams.masterKey 9 [10] (fun _ => by
      rw [show (9 : UInt32).toNat = 9 from rfl, hkey']
      exact hmac) id).mp h
    rw [show (9 : UInt32).toNat = 9 from rfl, hkey'] at hiff
    exact hne hiff.1

end Sample

end SsrBackend
