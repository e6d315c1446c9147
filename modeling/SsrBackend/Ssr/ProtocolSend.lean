import SsrBackend.Ssr.ProtocolReader

/-!
The send side of the protocol layer. A plaintext leaves in units of at most
`unitLen` bytes, each framed with the next pack id, and the framed packets form
a chain that the receive side accepts. `framed` is the packet format itself,
for any marker and padding.
-/

namespace SsrBackend

open Call

variable (P : Primitives)

/-- A data packet around `body`, which starts with its padding marker. -/
def framed (userKey : List UInt8) (id : UInt32) (body : List UInt8) : List UInt8 :=
  let lenBytes := leBytes 2 (body.length + 8)
  let packet := lenBytes ++ (mac P (packetMacKey userKey id) lenBytes 2 ++ body)
  packet ++ mac P (packetMacKey userKey id) packet 4

/-- The marker of a data packet and the random bytes behind it. -/
inductive Padding where
  | short (rnd : List UInt8) (h : rnd.length + 1 ≤ 254)
  | long (rnd : List UInt8)

namespace Padding

def bytes : Padding → List UInt8
  | short rnd _ => UInt8.ofNat (rnd.length + 1) :: rnd
  | long rnd => 255 :: (leBytes 2 (rnd.length + 3) ++ rnd)

/-- The single marker byte the server sends. -/
def minimal : Padding := .short [] (by decide)

end Padding

@[simp] theorem length_framed (userKey : List UInt8) (id : UInt32) (body : List UInt8) :
    (framed P userKey id body).length = body.length + 8 := by
  simp only [framed, List.length_append, length_leBytes, length_mac P _ _ (show 2 ≤ 16 by omega),
    length_mac P _ _ (show 4 ≤ 16 by omega)]
  omega

section Framed

variable {P} (userKey : List UInt8) (id : UInt32)

theorem window_framed {body : List UInt8} (lo hi : Nat) (h : hi ≤ body.length) :
    window (framed P userKey id body) (4 + lo) (4 + hi) = window body lo hi := by
  have hhead : (leBytes 2 (body.length + 8) ++
      mac P (packetMacKey userKey id) (leBytes 2 (body.length + 8)) 2).length = 4 := by
    rw [List.length_append, length_leBytes, length_mac P _ _ (by omega)]
  have hw := window_after (leBytes 2 (body.length + 8) ++
    mac P (packetMacKey userKey id) (leBytes 2 (body.length + 8)) 2) (body ++
      mac P (packetMacKey userKey id) (leBytes 2 (body.length + 8) ++
        (mac P (packetMacKey userKey id) (leBytes 2 (body.length + 8)) 2 ++ body)) 4) lo hi
  rw [hhead, window_append h] at hw
  rw [← hw, framed]
  simp only [List.append_assoc]

theorem packetLength_framed {body : List UInt8} (h : body.length + 8 < maxPacket) :
    packetLength (framed P userKey id body) = body.length + 8 := by
  have hlt : body.length + 8 < 256 ^ 2 := by
    have hmax : maxPacket = 8192 := rfl
    omega
  rw [packetLength, framed, List.append_assoc, window_head _ _ (by simp),
    leValue_leBytes_of_lt hlt]

theorem packetPos_framed (pad : Padding) (payload : List UInt8)
    (h : pad.bytes.length < 65536) :
    packetPos (framed P userKey id (pad.bytes ++ payload)) = pad.bytes.length + 4 := by
  unfold packetPos
  cases pad with
  | short rnd hrnd =>
      have hmark : window (framed P userKey id ((Padding.short rnd hrnd).bytes ++ payload)) 4 5 =
          [UInt8.ofNat (rnd.length + 1)] :=
        (window_framed userKey id 0 1 (by simp [Padding.bytes])).trans rfl
      have hval : leValue [UInt8.ofNat (rnd.length + 1)] = rnd.length + 1 := by
        simp only [leValue, UInt8.toNat_ofNat']
        omega
      rw [hmark, hval, if_pos (by omega)]
      simp [Padding.bytes]
  | long rnd =>
      have hmark : window (framed P userKey id ((Padding.long rnd).bytes ++ payload)) 4 5 = [255] :=
        (window_framed userKey id 0 1 (by simp [Padding.bytes])).trans rfl
      have hlen : window (framed P userKey id ((Padding.long rnd).bytes ++ payload)) 5 7 =
          leBytes 2 (rnd.length + 3) := by
        refine (window_framed userKey id 1 3 (by simp [Padding.bytes])).trans ?_
        exact window_field [255] (leBytes 2 (rnd.length + 3)) (rnd ++ payload) rfl (by simp)
      have hlt : rnd.length + 3 < 256 ^ 2 := by
        simp only [Padding.bytes, List.length_cons, List.length_append, length_leBytes] at h
        omega
      rw [hmark, hlen, leValue_leBytes_of_lt hlt, if_neg (by decide)]
      simp [Padding.bytes]
      omega

theorem framed_checksum (body : List UInt8) :
    mac P (packetMacKey userKey id)
        (window (framed P userKey id body) 0 ((framed P userKey id body).length - 4)) 4 =
      window (framed P userKey id body) ((framed P userKey id body).length - 4)
        (framed P userKey id body).length := by
  rw [length_framed, show body.length + 8 - 4 = body.length + 4 by omega]
  have hpacket : (leBytes 2 (body.length + 8) ++ (mac P (packetMacKey userKey id)
      (leBytes 2 (body.length + 8)) 2 ++ body)).length = body.length + 4 := by
    rw [List.length_append, List.length_append, length_leBytes, length_mac P _ _ (by omega)]
    omega
  rw [framed, window_head _ _ hpacket.symm, window_last _ _ hpacket.symm]
  rw [hpacket, length_mac P _ _ (by omega)]

/-- A framed packet below the packet limit is accepted, and gives back its payload. -/
theorem framed_valid (pad : Padding) (payload : List UInt8)
    (h : 8 + pad.bytes.length + payload.length < maxPacket) :
    ValidData P userKey id (framed P userKey id (pad.bytes ++ payload)) ∧
      dataPayload (framed P userKey id (pad.bytes ++ payload)) = payload := by
  have hmax : maxPacket = 8192 := rfl
  have hbody : (pad.bytes ++ payload).length + 8 < maxPacket := by
    rw [List.length_append]
    omega
  have hpos := packetPos_framed (P := P) userKey id pad payload (by omega)
  have hlen := length_framed P userKey id (pad.bytes ++ payload)
  refine ⟨⟨by omega, ?_, ?_, ?_, ?_⟩, ?_⟩
  · rw [packetLength_framed userKey id hbody, hlen]
  · rw [framed, List.append_assoc, window_head _ _ (by simp), List.append_assoc,
      window_field _ _ _ (by simp) (by simp [length_mac])]
  · exact framed_checksum userKey id _
  · rw [hlen, hpos, List.length_append]
    omega
  · rw [dataPayload, hpos, hlen, Nat.add_comm pad.bytes.length 4,
      show (pad.bytes ++ payload).length + 8 - 4 = 4 + (pad.bytes ++ payload).length by omega,
      window_framed userKey id _ _ (Nat.le_refl _)]
    exact window_last pad.bytes payload rfl (List.length_append)

end Framed

namespace AuthAes128Md5

def packData (buf : List UInt8) : Call CodecError AuthAes128Md5 (List UInt8) := do
  let s ← get
  let data := 0x01 :: buf
  let dataLen := (data.length + 8) % 2 ^ 16
  let macKey := s.userKey ++ leBytes 4 s.packId.toNat
  let lenBytes := leBytes 2 dataLen
  let mac ← hmacMd5Prefix P macKey lenBytes 2
  let packet := lenBytes ++ mac ++ data
  let tail ← hmacMd5Prefix P macKey packet 4
  modify fun s => { s with packId := s.packId + 1 }
  return packet ++ tail

/-- One turn of the loop over the full units: the packet and what is left. -/
def unitTurn (rest : List UInt8) : Call CodecError AuthAes128Md5 (List UInt8 × List UInt8) := do
  let packet ← packData P (← slice rest 0 unitLen)
  return (packet, ← slice rest unitLen rest.length)

theorem packData_spec (s : AuthAes128Md5) {buf : List UInt8} (h : buf.length ≤ unitLen) :
    (packData P buf).run s =
      (.ok (framed P s.userKey s.packId (Padding.minimal.bytes ++ buf)),
        { s with packId := s.packId + 1 }) := by
  have hlen : ((0x01 :: buf).length + 8) % 2 ^ 16 = (Padding.minimal.bytes ++ buf).length + 8 := by
    simp only [unitLen] at h
    simp only [Padding.minimal, Padding.bytes, List.length_cons, List.length_append,
      List.length_nil]
    omega
  have hmin : Padding.minimal.bytes ++ buf = 0x01 :: buf := rfl
  have m2 (key data : List UInt8) : (hmacMd5Prefix P key data 2 : Call CodecError AuthAes128Md5 _) =
      pure (mac P key data 2) := hmacMd5Prefix_of_le P key data (by omega)
  have m4 (key data : List UInt8) : (hmacMd5Prefix P key data 4 : Call CodecError AuthAes128Md5 _) =
      pure (mac P key data 4) := hmacMd5Prefix_of_le P key data (by omega)
  simp only [packData, Call.run_get_bind, m2, m4, pure_bind, Call.run_modify_bind, hlen, framed,
    hmin, packetMacKey, List.append_assoc]
  rfl

theorem unitTurn_spec (s : AuthAes128Md5) {rest : List UInt8} (h : unitLen < rest.length) :
    (unitTurn P rest).run s =
      (.ok (framed P s.userKey s.packId (Padding.minimal.bytes ++ rest.take unitLen),
        rest.drop unitLen), { s with packId := s.packId + 1 }) := by
  have hhead : (slice rest 0 unitLen : Call CodecError AuthAes128Md5 _) =
      pure (rest.take unitLen) := slice_of_le (by omega) (by omega)
  have htail : (slice rest unitLen rest.length : Call CodecError AuthAes128Md5 _) =
      pure (rest.drop unitLen) := by
    rw [slice_of_le (by omega) (Nat.le_refl _), window, List.take_length]
  have hlen : (rest.take unitLen).length ≤ unitLen := List.length_take_le _ _
  simp only [unitTurn, hhead, htail, pure_bind]
  rw [Call.run_bind, packData_spec P s hlen]
  rfl

theorem unitTurn_shrinks {s s' : AuthAes128Md5} {rest packet rest' : List UInt8}
    (h : unitLen < rest.length) (hr : (unitTurn P rest).run s = (.ok (packet, rest'), s')) :
    rest'.length < rest.length := by
  rw [unitTurn_spec P s h] at hr
  simp only [Prod.mk.injEq, Outcome.ok.injEq] at hr
  rw [← hr.1.2, List.length_drop]
  simp only [unitLen] at h ⊢
  omega

/-- The `while` loop over the full units. -/
def unitLoop (out rest : List UInt8) (s : AuthAes128Md5) :
    Outcome CodecError (List UInt8 × List UInt8) × AuthAes128Md5 :=
  if _h : unitLen < rest.length then
    match _hr : (unitTurn P rest).run s with
    | (.ok (packet, rest'), s') => unitLoop (out ++ packet) rest' s'
    | (.err e, s') => (.err e, s')
    | (.panic, s') => (.panic, s')
  else (.ok (out, rest), s)
termination_by rest.length
decreasing_by exact unitTurn_shrinks P _h _hr

def serverPreEncrypt (plaintext : List UInt8) : Call CodecError AuthAes128Md5 (List UInt8) := do
  let (out, rest) ← ⟨unitLoop P [] plaintext⟩
  return out ++ (← packData P rest)

end AuthAes128Md5

/-- The units a plaintext is sent in: full ones, then one that may be empty. -/
def units (plaintext : List UInt8) : List (List UInt8) :=
  if unitLen < plaintext.length then
    plaintext.take unitLen :: units (plaintext.drop unitLen)
  else [plaintext]
termination_by plaintext.length
decreasing_by
  simp only [unitLen, List.length_drop] at *
  omega

/-- The packets of consecutive bodies. -/
def packUnits (userKey : List UInt8) : UInt32 → List (Padding × List UInt8) → List (List UInt8)
  | _, [] => []
  | id, (pad, payload) :: rest =>
      framed P userKey id (pad.bytes ++ payload) :: packUnits userKey (id + 1) rest

/-- The bodies in which the server sends a plaintext. -/
def serverUnits (plaintext : List UInt8) : List (Padding × List UInt8) :=
  (units plaintext).map fun u => (Padding.minimal, u)

theorem flatten_units (plaintext : List UInt8) : (units plaintext).flatten = plaintext := by
  induction plaintext using units.induct with
  | case1 plaintext h ih =>
      rw [units, if_pos h, List.flatten_cons, ih, List.take_append_drop]
  | case2 plaintext h =>
      rw [units, if_neg h]
      simp

theorem length_of_mem_units {plaintext u : List UInt8} (h : u ∈ units plaintext) :
    u.length ≤ unitLen := by
  induction plaintext using units.induct with
  | case1 plaintext hlong ih =>
      rw [units, if_pos hlong, List.mem_cons] at h
      rcases h with rfl | h
      · exact List.length_take_le _ _
      · exact ih h
  | case2 plaintext hshort =>
      rw [units, if_neg hshort, List.mem_singleton] at h
      subst h
      omega

theorem length_packUnits (userKey : List UInt8) (id : UInt32) (us : List (Padding × List UInt8)) :
    (packUnits P userKey id us).length = us.length := by
  induction us generalizing id with
  | nil => rfl
  | cons u us ih => rw [packUnits, List.length_cons, ih, List.length_cons]

theorem length_of_mem_packUnits {userKey : List UInt8} {id : UInt32}
    {us : List (Padding × List UInt8)} {p : List UInt8} (h : p ∈ packUnits P userKey id us) :
    ∃ u ∈ us, p.length = u.1.bytes.length + u.2.length + 8 := by
  induction us generalizing id with
  | nil => simp [packUnits] at h
  | cons u us ih =>
      rcases List.mem_cons.mp h with rfl | hrest
      · exact ⟨u, List.mem_cons_self, by rw [length_framed, List.length_append]⟩
      · obtain ⟨v, hv, hlen⟩ := ih hrest
        exact ⟨v, List.mem_cons_of_mem u hv, hlen⟩

theorem packUnits_append (userKey : List UInt8) (id : UInt32)
    (us vs : List (Padding × List UInt8)) :
    packUnits P userKey id (us ++ vs) = packUnits P userKey id us ++
      packUnits P userKey (id + UInt32.ofNat us.length) vs := by
  induction us generalizing id with
  | nil =>
      have hid : id + UInt32.ofNat ([] : List (Padding × List UInt8)).length = id := by simp
      rw [hid]
      rfl
  | cons u us ih => rw [List.cons_append, packUnits, packUnits, ih, List.length_cons, succ_id,
      List.cons_append]

/-- Packed bodies are a chain of valid packets that carries the payloads. -/
theorem packUnits_valid (userKey : List UInt8) (id : UInt32) {us : List (Padding × List UInt8)}
    (h : ∀ u ∈ us, 8 + u.1.bytes.length + u.2.length < maxPacket) :
    ValidChain P userKey id (packUnits P userKey id us) ∧
      (packUnits P userKey id us).flatMap dataPayload = us.flatMap fun u => u.2 := by
  induction us generalizing id with
  | nil => exact ⟨trivial, rfl⟩
  | cons u us ih =>
      obtain ⟨hchain, hpay⟩ := ih (id + 1) (fun v hv => h v (List.mem_cons_of_mem u hv))
      have hvalid := framed_valid (P := P) userKey id u.1 u.2 (h u List.mem_cons_self)
      refine ⟨⟨hvalid.1, hchain⟩, ?_⟩
      rw [packUnits, List.flatMap_cons, hpay, hvalid.2, List.flatMap_cons]

/-- The bodies of a plaintext carry it, each below the packet limit. -/
theorem serverUnits_spec (plaintext : List UInt8) :
    ((serverUnits plaintext).flatMap fun u => u.2) = plaintext ∧
      ∀ u ∈ serverUnits plaintext, u.1 = Padding.minimal ∧ u.2.length ≤ unitLen := by
  constructor
  · rw [serverUnits, List.flatMap_map, List.flatMap_id', flatten_units]
  · intro u hu
    obtain ⟨v, hv, rfl⟩ := List.mem_map.mp hu
    exact ⟨rfl, length_of_mem_units hv⟩

theorem length_units (plaintext : List UInt8) :
    (units plaintext).length = (plaintext.length - 1) / unitLen + 1 := by
  induction plaintext using units.induct with
  | case1 plaintext h ih =>
      rw [units, if_pos h, List.length_cons, ih, List.length_drop]
      unfold unitLen at h ⊢
      omega
  | case2 plaintext h =>
      rw [units, if_neg h, List.length_singleton]
      unfold unitLen at h ⊢
      omega

theorem length_flatten_packUnits (userKey : List UInt8) (id : UInt32) (us : List (List UInt8)) :
    (packUnits P userKey id (us.map fun u => (Padding.minimal, u))).flatten.length =
      us.flatten.length + 9 * us.length := by
  induction us generalizing id with
  | nil => rfl
  | cons u us ih =>
      have hone : (Padding.minimal.bytes ++ u).length = u.length + 1 := by
        simp [Padding.minimal, Padding.bytes]
      rw [List.map_cons, packUnits, List.flatten_cons, List.length_append, length_framed, hone, ih,
        List.flatten_cons, List.length_append, List.length_cons]
      omega

/-- Each unit of a plaintext costs nine bytes more on the wire. -/
theorem length_serverUnits (userKey : List UInt8) (id : UInt32) (plaintext : List UInt8) :
    (packUnits P userKey id (serverUnits plaintext)).flatten.length =
      plaintext.length + 9 * ((plaintext.length - 1) / unitLen + 1) := by
  rw [serverUnits, length_flatten_packUnits, flatten_units, length_units]

theorem minimal_lt {payload : List UInt8} (h : payload.length ≤ unitLen) :
    8 + Padding.minimal.bytes.length + payload.length < maxPacket := by
  have hbytes : Padding.minimal.bytes.length = 1 := rfl
  have hunit : unitLen = 8100 := rfl
  have hmax : maxPacket = 8192 := rfl
  omega

namespace AuthAes128Md5

theorem unitLoop_spec (out plaintext : List UInt8) (s : AuthAes128Md5) :
    ((⟨unitLoop P out plaintext⟩ : Call CodecError AuthAes128Md5 _) >>= fun r => do
        return r.1 ++ (← packData P r.2)).run s =
      (.ok (out ++ (packUnits P s.userKey s.packId (serverUnits plaintext)).flatten),
        { s with packId := s.packId + UInt32.ofNat (serverUnits plaintext).length }) := by
  induction plaintext using units.induct generalizing out s with
  | case1 plaintext h ih =>
      have hloop : unitLoop P out plaintext s = unitLoop P
          (out ++ framed P s.userKey s.packId (Padding.minimal.bytes ++ plaintext.take unitLen))
          (plaintext.drop unitLen) { s with packId := s.packId + 1 } := by
        rw [unitLoop, dif_pos h]
        have hturn := unitTurn_spec P s h
        split <;> simp_all
      have hrest := ih
        (out ++ framed P s.userKey s.packId (Padding.minimal.bytes ++ plaintext.take unitLen))
        { s with packId := s.packId + 1 }
      rw [Call.run_bind] at hrest ⊢
      simp only [hloop]
      have hunits : serverUnits plaintext =
          (Padding.minimal, plaintext.take unitLen) :: serverUnits (plaintext.drop unitLen) := by
        rw [serverUnits, units, if_pos h, List.map_cons, serverUnits]
      rw [hunits, packUnits, List.flatten_cons, List.length_cons, succ_id, ← List.append_assoc]
      exact hrest
  | case2 plaintext h =>
      have hloop : unitLoop P out plaintext s = (.ok (out, plaintext), s) := by
        rw [unitLoop, dif_neg h]
      rw [Call.run_bind]
      simp only [hloop]
      rw [Call.run_bind, packData_spec P s (by omega), serverUnits, units, if_neg h]
      simp [packUnits]

theorem serverPreEncrypt_spec (s : AuthAes128Md5) (plaintext : List UInt8) :
    (serverPreEncrypt P plaintext).run s =
      (.ok (packUnits P s.userKey s.packId (serverUnits plaintext)).flatten,
        { s with packId := s.packId + UInt32.ofNat (serverUnits plaintext).length }) :=
  unitLoop_spec P [] plaintext s

end AuthAes128Md5

end SsrBackend
