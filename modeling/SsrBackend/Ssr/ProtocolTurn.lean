import SsrBackend.Foundation.Resumable
import SsrBackend.Ssr.Protocol

/-!
What one attempt at the auth header and one turn of the packet loop do, without
checked operations: `headerAttempt` and `packetAttempt` are functions of the
buffer, and the two turns of `server_post_decrypt` are exactly these verdicts
followed by their state updates. No access of either turn is out of range.
-/

namespace SsrBackend

open Resumable

/-- Whom the header has selected: the MAC key of the stream and the user. -/
structure Identity where
  userKey : List UInt8
  userId : Option Nat

/-- What a session knows before the client has sent anything but its IV. -/
structure Params where
  masterKey : List UInt8
  recvIv : List UInt8
  users : Users
  isMultiUser : Int

/-- Control state of the receive side. -/
inductive Phase where
  | header
  | stream (who : Identity) (recvId : UInt32)

variable (P : Primitives)

def authKey (userKey : List UInt8) : Vector UInt8 16 :=
  block 16 (evpBytesToKey P (P.base64 userKey ++ salt) 16)

theorem deriveAesKey_eq {m : Type → Type} [Monad m] [MonadPanic m] (userKey : List UInt8) :
    (deriveAesKey P userKey : m (Vector UInt8 16)) = pure (authKey P userKey) :=
  copyFromSlice_of_length (by simp)

theorem u16Le_of_length {m : Type → Type} [Monad m] [LawfulMonad m] [MonadPanic m]
    {b : List UInt8} (h : b.length = 2) : (u16Le b : m Nat) = pure (leValue b) := by
  match b, h with
  | [x, y], _ => simp [u16Le, index]

def Params.macKey (par : Params) : List UInt8 := par.recvIv ++ par.masterKey

def Params.initial (par : Params) : Identity := ⟨par.masterKey, none⟩

/-- The key a uid selects; a stream keeps `current` where the source keeps its fields. -/
def Params.select (par : Params) (current : Identity) (uid : Nat) : Identity :=
  match par.users[uid]? with
  | some userKey => ⟨userKey, some uid⟩
  | none => if par.isMultiUser = 2 then ⟨par.recvIv, none⟩ else current

/-- The uid field of an auth packet. -/
def headerUid (buf : List UInt8) : Nat := leValue (window buf 7 11)

/-- The check head and the header MAC of a buffer verify. -/
def HeaderVerified (par : Params) (buf : List UInt8) : Prop :=
  31 ≤ buf.length ∧ mac P par.macKey (window buf 0 1) 6 = window buf 1 7 ∧
    mac P par.macKey (window buf 7 27) 4 = window buf 27 31

instance (par : Params) (buf : List UInt8) : Decidable (HeaderVerified P par buf) :=
  inferInstanceAs (Decidable (_ ∧ _ ∧ _))

/-- The decrypted length and padding block of an auth packet. -/
def headerBlock (userKey buf : List UInt8) : List UInt8 :=
  (P.aesDecrypt (authKey P userKey) (block 16 (window buf 11 27))).toList

def headerLength (userKey buf : List UInt8) : Nat :=
  leValue (window (headerBlock P userKey buf) 12 14)

def headerRndLen (userKey buf : List UInt8) : Nat :=
  leValue (window (headerBlock P userKey buf) 14 16)

/-- The verdict on an auth packet whose header selected `who`. -/
def authAttempt (who : Identity) (buf : List UInt8) : Attempt CodecError Phase UInt8 :=
  let length := headerLength P who.userKey buf
  let rndLen := headerRndLen P who.userKey buf
  if ¬(31 ≤ length ∧ length < maxPacket) then .reject (.badAuthLength length)
  else if buf.length < length then .wait
  else if mac P who.userKey (window buf 0 (length - 4)) 4 ≠ window buf (length - 4) length then
    .reject .authChecksum
  else if length - 4 < 31 + rndLen then .reject (.rndLenOverrun rndLen)
  else .accept length (window buf (31 + rndLen) (length - 4)) (.stream who 1)

def headerAttempt (par : Params) (current : Identity) (buf : List UInt8) :
    Attempt CodecError Phase UInt8 :=
  if buf.length < 7 then .wait
  else if mac P par.macKey (window buf 0 1) 6 ≠ window buf 1 7 then .reject .checkHead
  else if buf.length < 31 then .wait
  else if mac P par.macKey (window buf 7 27) 4 ≠ window buf 27 31 then .reject .authHeader
  else authAttempt P (par.select current (headerUid buf)) buf

def packetMacKey (userKey : List UInt8) (recvId : UInt32) : List UInt8 :=
  userKey ++ leBytes 4 recvId.toNat

def packetLength (buf : List UInt8) : Nat := leValue (window buf 0 2)

/-- Where the payload of a data packet starts. -/
def packetPos (buf : List UInt8) : Nat :=
  if leValue (window buf 4 5) < 255 then leValue (window buf 4 5) + 4
  else leValue (window buf 5 7) + 4

def packetAttempt (who : Identity) (recvId : UInt32) (buf : List UInt8) :
    Attempt CodecError Phase UInt8 :=
  let macKey := packetMacKey who.userKey recvId
  let length := packetLength buf
  if buf.length ≤ 4 then .wait
  else if mac P macKey (window buf 0 2) 2 ≠ window buf 2 4 then .reject .dataLengthHmac
  else if ¬(7 ≤ length ∧ length < maxPacket) then .reject (.badDataLength length)
  else if buf.length < length then .wait
  else if mac P macKey (window buf 0 (length - 4)) 4 ≠ window buf (length - 4) length then
    .reject .dataChecksum
  else if length - 4 < packetPos buf then .reject .dataPadding
  else .accept length (window buf (packetPos buf) (length - 4)) (.stream who (recvId + 1))

theorem index_eq_leValue {buf : List UInt8} {i : Nat} (h : i < buf.length) :
    (buf[i]).toNat = leValue (window buf i (i + 1)) := by
  rw [window_cons (Nat.lt_succ_self i) h, window_self]
  simp [leValue]

theorem dataPos_of_le {m : Type → Type} [Monad m] [LawfulMonad m] [MonadPanic m]
    {buf : List UInt8} (h : 7 ≤ buf.length) : (dataPos buf : m Nat) = pure (packetPos buf) := by
  have h4 : 4 < buf.length := by omega
  have u57 : (u16Le (window buf 5 7) : m Nat) = pure (leValue (window buf 5 7)) :=
    u16Le_of_length (by rw [length_window]; omega)
  rw [dataPos, index_of_lt h4, pure_bind, packetPos, ← index_eq_leValue h4]
  simp only [slice_of_le (show 5 ≤ 7 by omega) h, u57, pure_bind]
  split <;> rfl

/-- The accesses to a packet of `n` bytes: its body and its four-byte checksum. -/
theorem checksum_slices {m : Type → Type} [Monad m] [MonadPanic m] {buf : List UInt8} {n : Nat}
    (h4 : 4 ≤ n) (hn : n ≤ buf.length) :
    (checkedSub n 4 : m Nat) = pure (n - 4) ∧
      (slice buf 0 (n - 4) : m (List UInt8)) = pure (window buf 0 (n - 4)) ∧
      (slice buf (n - 4) n : m (List UInt8)) = pure (window buf (n - 4) n) :=
  ⟨checkedSub_of_le h4, slice_of_le (by omega) (by omega), slice_of_le (by omega) hn⟩

theorem headerUid_eq {buf : List UInt8} (h : 11 ≤ buf.length) :
    leValue [buf[7], buf[8], buf[9], buf[10]] = headerUid buf := by
  rw [headerUid, window_cons (by omega) h, window_cons (by omega) h, window_cons (by omega) h,
    window_cons (by omega) h, window_self]

namespace AuthAes128Md5

def params (s : AuthAes128Md5) : Params := ⟨s.masterKey, s.recvIv, s.users, s.isMultiUser⟩

def identity (s : AuthAes128Md5) : Identity := ⟨s.userKey, s.userId⟩

def become (s : AuthAes128Md5) (who : Identity) : AuthAes128Md5 :=
  { s with userKey := who.userKey, userId := who.userId, aesKey := authKey P who.userKey }

/-- The AES key in use is that of the user key in use. -/
def Keyed (s : AuthAes128Md5) : Prop := s.aesKey = authKey P s.userKey

theorem become_identity {s : AuthAes128Md5} (h : s.Keyed P) : s.become P s.identity = s := by
  unfold Keyed at h
  simp only [become, identity, ← h]

theorem keyed_become (s : AuthAes128Md5) (who : Identity) : (s.become P who).Keyed P := rfl

theorem selectUser_spec {s : AuthAes128Md5} (h : s.Keyed P) (uid : Nat) :
    (selectUser P uid).run s = (.ok ⟨⟩, s.become P (s.params.select s.identity uid)) := by
  simp only [selectUser, rebuildAesKey, deriveAesKey_eq, Call.run_get_bind, Params.select,
    params]
  cases s.users[uid]? with
  | some userKey => rfl
  | none =>
      by_cases hm : s.isMultiUser = 2
      · simp only [hm, ite_true]
        rfl
      · simp only [hm, ite_false, become_identity P h]
        rfl

theorem drainRecv_bind {β : Type} {s : AuthAes128Md5} {n : Nat} (h : n ≤ s.recvBuf.length)
    (f : Unit → Call CodecError AuthAes128Md5 β) :
    (drainRecv n >>= f).run s = (f ⟨⟩).run { s with recvBuf := s.recvBuf.drop n } := by
  have hw : window s.recvBuf n s.recvBuf.length = s.recvBuf.drop n := by
    rw [window, List.take_length]
  have hs : (slice s.recvBuf n s.recvBuf.length : Call CodecError AuthAes128Md5 _) =
      pure (s.recvBuf.drop n) := by rw [slice_of_le h (Nat.le_refl _), hw]
  simp only [drainRecv, bind_assoc, Call.run_get_bind, hs, pure_bind, Call.run_modify_bind]

theorem packetTurn_spec {s : AuthAes128Md5} (h4 : 4 < s.recvBuf.length) :
    (packetTurn P).run s = match packetAttempt P s.identity s.recvId s.recvBuf with
      | .wait => (.ok none, s)
      | .reject e => (.err e, if e = .dataPadding then { s with recvId := s.recvId + 1 } else s)
      | .accept n out _ =>
          (.ok (some out), { s with recvId := s.recvId + 1, recvBuf := s.recvBuf.drop n }) := by
  have s02 : (slice s.recvBuf 0 2 : Call CodecError AuthAes128Md5 _) =
      pure (window s.recvBuf 0 2) := slice_of_le (by omega) (by omega)
  have s24 : (slice s.recvBuf 2 4 : Call CodecError AuthAes128Md5 _) =
      pure (window s.recvBuf 2 4) := slice_of_le (by omega) (by omega)
  have u02 : (u16Le (window s.recvBuf 0 2) : Call CodecError AuthAes128Md5 _) =
      pure (packetLength s.recvBuf) := u16Le_of_length (by rw [length_window]; omega)
  have m2 (key data : List UInt8) : (hmacMd5Prefix P key data 2 : Call CodecError AuthAes128Md5 _) =
      pure (mac P key data 2) := hmacMd5Prefix_of_le P key data (by omega)
  have m4 (key data : List UInt8) : (hmacMd5Prefix P key data 4 : Call CodecError AuthAes128Md5 _) =
      pure (mac P key data 4) := hmacMd5Prefix_of_le P key data (by omega)
  have hkey : s.userKey ++ leBytes 4 s.recvId.toNat = packetMacKey s.userKey s.recvId := rfl
  simp only [packetTurn, Call.run_get_bind, s02, s24, u02, m2, m4, pure_bind, ↓Call.bail_bind,
    hkey, packetAttempt, identity, if_neg (show ¬ s.recvBuf.length ≤ 4 by omega)]
  by_cases hmac : mac P (packetMacKey s.userKey s.recvId) (window s.recvBuf 0 2) 2 =
      window s.recvBuf 2 4
  swap
  · simp [hmac]
  by_cases hrange : 7 ≤ packetLength s.recvBuf ∧ packetLength s.recvBuf < maxPacket
  swap
  · simp [hmac, hrange]
  by_cases hlen : s.recvBuf.length < packetLength s.recvBuf
  · simp [hmac, hrange, hlen]
  obtain ⟨c4, sbody, stail⟩ := checksum_slices (m := Call CodecError AuthAes128Md5)
    (show 4 ≤ packetLength s.recvBuf by omega)
    (show packetLength s.recvBuf ≤ s.recvBuf.length by omega)
  have hpos : (dataPos s.recvBuf : Call CodecError AuthAes128Md5 _) = pure (packetPos s.recvBuf) :=
    dataPos_of_le (by omega)
  simp only [hmac, hrange, hlen, gt_iff_lt, ne_eq, not_true_eq_false, and_self, ite_false, c4,
    sbody, stail, hpos, pure_bind]
  by_cases hsum : mac P (packetMacKey s.userKey s.recvId)
      (window s.recvBuf 0 (packetLength s.recvBuf - 4)) 4 =
      window s.recvBuf (packetLength s.recvBuf - 4) (packetLength s.recvBuf)
  swap
  · simp [hsum]
  by_cases hpad : packetLength s.recvBuf - 4 < packetPos s.recvBuf
  · simp [hsum, hpad]
  have sout : (slice s.recvBuf (packetPos s.recvBuf) (packetLength s.recvBuf - 4) :
      Call CodecError AuthAes128Md5 _) =
      pure (window s.recvBuf (packetPos s.recvBuf) (packetLength s.recvBuf - 4)) :=
    slice_of_le (by omega) (by omega)
  have hle : packetLength s.recvBuf ≤ s.recvBuf.length := by omega
  simp only [hsum, not_true_eq_false, ite_false, Call.run_modify_bind, hpad, sout, pure_bind]
  exact drainRecv_bind (by simpa using hle) _

theorem authPacket_spec {s : AuthAes128Md5} (hk : s.Keyed P) (h31 : 31 ≤ s.recvBuf.length) :
    (authPacket P).run s = match authAttempt P s.identity s.recvBuf with
      | .wait => (.ok none, s)
      | .reject e => (.err e, s)
      | .accept n out _ =>
          (.ok (some out), { s with recvBuf := s.recvBuf.drop n, hasRecvHeader := true }) := by
  have m4 (key data : List UInt8) : (hmacMd5Prefix P key data 4 : Call CodecError AuthAes128Md5 _) =
      pure (mac P key data 4) := hmacMd5Prefix_of_le P key data (by omega)
  have s1127 : (slice s.recvBuf 11 27 : Call CodecError AuthAes128Md5 _) =
      pure (window s.recvBuf 11 27) := slice_of_le (by omega) (by omega)
  have haes : (s.aesDecryptBlock P (window s.recvBuf 11 27) : Call CodecError AuthAes128Md5 _) =
      pure (P.aesDecrypt (authKey P s.userKey) (block 16 (window s.recvBuf 11 27))) := by
    have hl : (window s.recvBuf 11 27).length = 16 := by rw [length_window]; omega
    have ha : s.aesKey = authKey P s.userKey := hk
    rw [aesDecryptBlock, copyFromSlice_of_length hl, pure_bind, ha]
  have hblock : (P.aesDecrypt (authKey P s.userKey) (block 16 (window s.recvBuf 11 27))).toList =
      headerBlock P s.userKey s.recvBuf := rfl
  have hsize : (headerBlock P s.userKey s.recvBuf).length = 16 := by simp [headerBlock]
  have s1214 : (slice (headerBlock P s.userKey s.recvBuf) 12 14 :
      Call CodecError AuthAes128Md5 _) = pure (window (headerBlock P s.userKey s.recvBuf) 12 14) :=
    slice_of_le (by omega) (by omega)
  have ulen : (u16Le (window (headerBlock P s.userKey s.recvBuf) 12 14) :
      Call CodecError AuthAes128Md5 _) = pure (headerLength P s.userKey s.recvBuf) :=
    u16Le_of_length (by rw [length_window]; omega)
  have s1416 : (slice (headerBlock P s.userKey s.recvBuf) 14 16 :
      Call CodecError AuthAes128Md5 _) = pure (window (headerBlock P s.userKey s.recvBuf) 14 16) :=
    slice_of_le (by omega) (by omega)
  have urnd : (u16Le (window (headerBlock P s.userKey s.recvBuf) 14 16) :
      Call CodecError AuthAes128Md5 _) = pure (headerRndLen P s.userKey s.recvBuf) :=
    u16Le_of_length (by rw [length_window]; omega)
  simp only [authPacket, Call.run_get_bind, s1127, haes, hblock, s1214, ulen, s1416, urnd, m4,
    pure_bind, ↓Call.bail_bind, authAttempt, identity]
  by_cases hrange : 31 ≤ headerLength P s.userKey s.recvBuf ∧
      headerLength P s.userKey s.recvBuf < maxPacket
  swap
  · simp [hrange]
  by_cases hlen : s.recvBuf.length < headerLength P s.userKey s.recvBuf
  · simp [hrange, hlen]
  obtain ⟨c4, sbody, stail⟩ := checksum_slices (m := Call CodecError AuthAes128Md5)
    (show 4 ≤ headerLength P s.userKey s.recvBuf by omega)
    (show headerLength P s.userKey s.recvBuf ≤ s.recvBuf.length by omega)
  simp only [hrange, hlen, ne_eq, not_true_eq_false, and_self, ite_false, c4, sbody, stail,
    pure_bind, gt_iff_lt]
  by_cases hsum : mac P s.userKey
      (window s.recvBuf 0 (headerLength P s.userKey s.recvBuf - 4)) 4 =
      window s.recvBuf (headerLength P s.userKey s.recvBuf - 4)
        (headerLength P s.userKey s.recvBuf)
  swap
  · simp [hsum]
  by_cases hpad : headerLength P s.userKey s.recvBuf - 4 <
      31 + headerRndLen P s.userKey s.recvBuf
  · simp [hsum, hpad]
  have sout : (slice s.recvBuf (31 + headerRndLen P s.userKey s.recvBuf)
      (headerLength P s.userKey s.recvBuf - 4) : Call CodecError AuthAes128Md5 _) =
      pure (window s.recvBuf (31 + headerRndLen P s.userKey s.recvBuf)
        (headerLength P s.userKey s.recvBuf - 4)) := slice_of_le (by omega) (by omega)
  simp only [hsum, hpad, not_true_eq_false, ite_false, sout, pure_bind]
  exact drainRecv_bind (by omega) _

/-- The session after it has looked at its header, complete or not. -/
def seen (s : AuthAes128Md5) : AuthAes128Md5 :=
  if HeaderVerified P s.params s.recvBuf then
    s.become P (s.params.select s.identity (headerUid s.recvBuf))
  else s

theorem authHeader_spec {s : AuthAes128Md5} (hk : s.Keyed P) :
    (authHeader P).run s = match headerAttempt P s.params s.identity s.recvBuf with
      | .wait => (.ok none, s.seen P)
      | .reject e => (.err e, s.seen P)
      | .accept n out _ => (.ok (some out),
          { s.seen P with recvBuf := s.recvBuf.drop n, hasRecvHeader := true }) := by
  have hkey : s.recvIv ++ s.masterKey = s.params.macKey := rfl
  have m4 (key data : List UInt8) : (hmacMd5Prefix P key data 4 : Call CodecError AuthAes128Md5 _) =
      pure (mac P key data 4) := hmacMd5Prefix_of_le P key data (by omega)
  have m6 (key data : List UInt8) : (hmacMd5Prefix P key data 6 : Call CodecError AuthAes128Md5 _) =
      pure (mac P key data 6) := hmacMd5Prefix_of_le P key data (by omega)
  simp only [authHeader, Call.run_get_bind, m4, m6, pure_bind, ↓Call.bail_bind, hkey,
    headerAttempt, seen]
  by_cases h7 : s.recvBuf.length < 7
  · have hv : ¬ HeaderVerified P s.params s.recvBuf := fun h => by have := h.1; omega
    simp [h7, hv, show ¬ 7 ≤ s.recvBuf.length by omega, show s.recvBuf.length < 31 by omega]
  have s01 : (slice s.recvBuf 0 1 : Call CodecError AuthAes128Md5 _) =
      pure (window s.recvBuf 0 1) := slice_of_le (by omega) (by omega)
  have s17 : (slice s.recvBuf 1 7 : Call CodecError AuthAes128Md5 _) =
      pure (window s.recvBuf 1 7) := slice_of_le (by omega) (by omega)
  simp only [show 7 ≤ s.recvBuf.length by omega, ite_true, h7, ite_false, s01, s17, pure_bind]
  by_cases hchk : mac P s.params.macKey (window s.recvBuf 0 1) 6 = window s.recvBuf 1 7
  swap
  · have hv : ¬ HeaderVerified P s.params s.recvBuf := fun h => hchk h.2.1
    simp [hchk, hv]
  by_cases h31 : s.recvBuf.length < 31
  · have hv : ¬ HeaderVerified P s.params s.recvBuf := fun h => by have := h.1; omega
    simp [hchk, h31, hv]
  have s727 : (slice s.recvBuf 7 27 : Call CodecError AuthAes128Md5 _) =
      pure (window s.recvBuf 7 27) := slice_of_le (by omega) (by omega)
  have s2731 : (slice s.recvBuf 27 31 : Call CodecError AuthAes128Md5 _) =
      pure (window s.recvBuf 27 31) := slice_of_le (by omega) (by omega)
  have i (k : Nat) (hk : k < 31) : (index s.recvBuf k : Call CodecError AuthAes128Md5 _) =
      pure (s.recvBuf[k]) := index_of_lt (by omega)
  simp only [hchk, ne_eq, not_true_eq_false, h31, ite_false, s727, s2731, pure_bind,
    i 7 (by omega), i 8 (by omega), i 9 (by omega), i 10 (by omega),
    headerUid_eq (show 11 ≤ s.recvBuf.length by omega)]
  by_cases hauth : mac P s.params.macKey (window s.recvBuf 7 27) 4 = window s.recvBuf 27 31
  swap
  · have hv : ¬ HeaderVerified P s.params s.recvBuf := fun h => hauth h.2.2
    simp [hauth, hv]
  have hv : HeaderVerified P s.params s.recvBuf := ⟨by omega, hchk, hauth⟩
  simp only [hauth, not_true_eq_false, ite_false, hv, ite_true, Call.run_bind,
    selectUser_spec P hk]
  exact authPacket_spec P (keyed_become P s _) (by simpa [become] using h31)

end AuthAes128Md5

end SsrBackend
