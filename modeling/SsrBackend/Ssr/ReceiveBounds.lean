import SsrBackend.Ssr.SessionDirections

/-!
What a session holds of the bytes a client has sent. A packet that is not complete
is shorter than the length it announces, and both length checks of the source keep
that below `MAX_PACKET`; so whatever is sent, and in whatever pieces, a call that
succeeds leaves less than an IV or less than a packet behind, and gives out no
more than it was given and what the calls before it had left.
-/

namespace SsrBackend

open Resumable

variable {P : Primitives}

/-- The most bytes the protocol layer keeps between two calls: `MAX_PACKET - 2`. -/
def maxUnread : Nat := 8190

theorem authAttempt_wait {who : Identity} {buf : List UInt8}
    (h : authAttempt P who buf = .wait) : buf.length ≤ maxUnread := by
  have hmax : maxPacket = 8192 := rfl
  unfold authAttempt at h
  unfold maxUnread
  dsimp only at h
  split at h
  · cases h
  · split at h
    · omega
    · repeat' split at h
      all_goals cases h

theorem headerAttempt_wait {par : Params} {current : Identity} {buf : List UInt8}
    (h : headerAttempt P par current buf = .wait) : buf.length ≤ maxUnread := by
  by_cases h31 : buf.length < 31
  · unfold maxUnread
    omega
  · have h7 : ¬ buf.length < 7 := by omega
    simp only [headerAttempt, if_neg h7, if_neg h31] at h
    split at h
    · cases h
    · split at h
      · cases h
      · exact authAttempt_wait h

theorem packetAttempt_wait {who : Identity} {id : UInt32} {buf : List UInt8}
    (h : packetAttempt P who id buf = .wait) : buf.length ≤ maxUnread := by
  have hmax : maxPacket = 8192 := rfl
  unfold packetAttempt at h
  unfold maxUnread
  dsimp only at h
  split at h
  · omega
  · split at h
    · cases h
    · split at h
      · cases h
      · split at h
        · omega
        · repeat' split at h
          all_goals cases h

/-- An incomplete packet is short. -/
theorem protocolReader_wait {par : Params} {phase : Phase} {buf : List UInt8}
    (h : (protocolReader P par).attempt phase buf = .wait) : buf.length ≤ maxUnread := by
  cases phase with
  | header => exact headerAttempt_wait h
  | stream who id => exact packetAttempt_wait h

/-- A packet carries less than it takes up. -/
theorem protocolReader_emits {par : Params} {phase next : Phase} {buf out : List UInt8} {n : Nat}
    (h : (protocolReader P par).attempt phase buf = .accept n out next) : out.length ≤ n := by
  cases phase with
  | header =>
      obtain ⟨hle, -, rfl, -⟩ := valid_of_headerAttempt h
      rw [authPayload, length_window, List.length_take]
      omega
  | stream who id =>
      obtain ⟨hle, -, rfl, -⟩ := valid_of_packetAttempt h
      rw [dataPayload, length_window, List.length_take]
      omega

theorem protocolReader_length {par : Params} {phase : Phase} {buf : List UInt8}
    {r : Drained UInt8 UInt8 Phase} (h : (protocolReader P par).drain phase buf = .ok r) :
    r.1.length + r.2.2.length ≤ buf.length :=
  Reader.drain_length protocolReader_emits h

theorem AuthAes128Md5.serverPostDecrypt_reject {par : Params} {buf incoming : List UInt8}
    {packId : UInt32} {e : CodecError}
    (h : headerAttempt P par par.initial (buf ++ incoming) = .reject e) :
    (serverPostDecrypt P incoming).run (ofPhase P par .header buf packId) =
      (.err e, ofPhase P par .header (buf ++ incoming) packId) := by
  have hcall := serverPostDecrypt_header (P := P) (s := ofPhase P par .header buf packId)
    rfl rfl incoming
  have hattempt : headerAttempt P (ofPhase P par .header buf packId).params
      (ofPhase P par .header buf packId).identity
      ((ofPhase P par .header buf packId).recvBuf ++ incoming) = .reject e :=
    (headerAttempt_identity par buf incoming).trans h
  rw [hcall, hattempt, seen_ofPhase]

namespace ServerSession

/-- The receive side holds less than an IV and less than a packet. -/
structure HoldsLittle (s : ServerSession) : Prop where
  recvIvBuf_lt : s.recvIvBuf.length < s.cipher.ivLen
  recvBuf_le : ∀ protocol, s.protocol = some protocol → protocol.recvBuf.length ≤ maxUnread

theorem Took.holdsLittle {s : ServerSession} {wire : List UInt8}
    {r : Drained UInt8 UInt8 Phase} (h : s.Took P wire r) : s.HoldsLittle := by
  obtain ⟨packId, -, hstate⟩ := h.state_eq
  by_cases hshort : wire.length < s.cipher.ivLen
  · rw [received, if_pos hshort] at hstate
    refine ⟨?_, ?_⟩
    · rw [hstate]
      exact hshort
    · intro protocol hp
      rw [hstate] at hp
      cases hp
  · rw [received, if_neg hshort] at hstate
    have hdrain : (protocolReader P (s.params wire)).drain .header (s.plain P wire).1 = .ok r :=
      h.decoded_eq
    refine ⟨?_, ?_⟩
    · rw [hstate]
      exact s.cipher.ivLen_pos
    · intro protocol hp
      rw [hstate] at hp
      rw [← Option.some.inj hp]
      exact protocolReader_wait (Reader.drain_settled hdrain)

/-- What comes out of a call is made of the bytes of the call and of those left before. -/
theorem Took.length_out {s : ServerSession} {wire : List UInt8} {r r' : Drained UInt8 UInt8 Phase}
    (h : s.Took P wire r) {raw out : List UInt8} (hnext : s.decoded P (wire ++ raw) = .ok r')
    (hout : r'.1 = r.1 ++ out) : out.length ≤ maxUnread + raw.length := by
  by_cases hshort : wire.length < s.cipher.ivLen
  · have hr := h.decoded_eq
    rw [decoded_of_lt hshort] at hr
    rw [← Except.ok.inj hr, List.nil_append] at hout
    have hle := protocolReader_length (P := P) hnext
    rw [plain, StreamCipher.length_process, List.length_drop, List.length_append, hout] at hle
    omega
  · have hdec := (decoded_append (P := P) (Nat.le_of_not_lt hshort) raw).2.2
    rw [hnext, h.decoded_eq] at hdec
    change _ = Except.map _ _ at hdec
    cases hd : (protocolReader P (s.params wire)).drain r.2.1
        (r.2.2 ++ ((s.plain P wire).2.process P raw).1) with
    | error e =>
        rw [hd] at hdec
        cases hdec
    | ok more =>
        rw [hd] at hdec
        have hsame : r' = Drained.after r.1 more := Except.ok.inj hdec
        rw [hsame] at hout
        have hmore : more.1 = out := List.append_cancel_left hout
        have hle := protocolReader_length (P := P) hd
        have hleft : r.2.2.length ≤ maxUnread :=
          protocolReader_wait (Reader.drain_settled h.decoded_eq)
        rw [List.length_append, StreamCipher.length_process, hmore] at hle
        omega

theorem Took.decrypt_holdsLittle {s : ServerSession} {wire raw out : List UInt8}
    {r : Drained UInt8 UInt8 Phase} (h : s.Took P wire r)
    (hout : ((decrypt P raw).run s).1 = .ok out) :
    ((decrypt P raw).run s).2.HoldsLittle ∧ out.length ≤ maxUnread + raw.length := by
  have hstep := decrypt_took h raw
  cases hd : s.decoded P (wire ++ raw) with
  | error e =>
      rw [hd, hout] at hstep
      cases hstep.1
  | ok r' =>
      rw [hd, hout] at hstep
      obtain ⟨out', hr', hsame, hnext⟩ := hstep
      cases hsame
      exact ⟨hnext.holdsLittle, h.length_out hd hr'⟩

/-- A `decrypt` call that succeeds on a sound session, and what is left behind it. A session
that is stuck lets a call pass on no bytes only. -/
theorem decrypt_holdsLittle {s : ServerSession} {raw out : List UInt8} (h : s.Sound P)
    (hraw : raw = [] → ∃ wire r, s.Took P wire r)
    (hout : ((decrypt P raw).run s).1 = .ok out) :
    ((decrypt P raw).run s).2.HoldsLittle ∧ out.length ≤ maxUnread + raw.length := by
  have htook : ∃ wire r, s.Took P wire r := by
    cases h.receive with
    | inr htook => exact htook
    | inl hstuck =>
        cases decrypt_stuck hstuck raw with
        | inl hempty => exact hraw hempty.1
        | inr herr =>
            obtain ⟨e, herr, -⟩ := herr
            rw [hout] at herr
            cases herr
  obtain ⟨wire, r, htook⟩ := htook
  exact htook.decrypt_holdsLittle hout

/-- A run whose `decrypt` calls have all succeeded has taken its wire in. -/
theorem runOps_took {s : ServerSession} {wire : List UInt8} {r : Drained UInt8 UInt8 Phase}
    (h : s.Took P wire r) {ops : List SessionOp}
    (hok : ∀ result ∈ decrypted P s ops, ∃ out, result = .ok out) :
    ∃ wire' r', (runOps P s ops).2.Took P wire' r' := by
  induction ops generalizing s wire r with
  | nil => exact ⟨wire, r, h⟩
  | cons op ops ih =>
      cases op with
      | encrypt plaintext => exact ih (encrypt_took h plaintext) hok
      | decrypt raw =>
          obtain ⟨out, hout⟩ := hok _ List.mem_cons_self
          have hstep := decrypt_took h raw
          cases hd : s.decoded P (wire ++ raw) with
          | error e =>
              rw [hd, hout] at hstep
              cases hstep.1
          | ok r' =>
              rw [hd] at hstep
              obtain ⟨-, -, -, hnext⟩ := hstep
              exact ih hnext fun result hmem => hok result (List.mem_cons_of_mem _ hmem)

/-- Whatever calls are mixed before it, a `decrypt` call that succeeds leaves little behind.
The call without bytes that the source also answers after an error is set apart. -/
theorem Fresh.decrypt_bounded {s : ServerSession} (hs : s.Fresh P) (ops : List SessionOp)
    {raw out : List UInt8}
    (hraw : raw = [] → ∀ result ∈ decrypted P s ops, ∃ out, result = .ok out)
    (hout : ((decrypt P raw).run (runOps P s ops).2).1 = .ok out) :
    ((decrypt P raw).run (runOps P s ops).2).2.HoldsLittle ∧
      out.length ≤ maxUnread + raw.length :=
  decrypt_holdsLittle (runOps_sound hs.sound ops).2 (fun hempty => runOps_took hs.took (hraw hempty))
    hout

/-- The first bytes of a packet wait in the protocol's buffer. -/
theorem decrypt_of_few {s : ServerSession} (hkey : s.masterKey.length = s.cipher.keyLen)
    {wire out raw : List UInt8} {who : Identity} {id : UInt32}
    (hd : s.decoded P wire = .ok (out, .stream who id, [])) (hraw : raw.length ≤ 4) :
    ∃ session protocol, (decrypt P raw).run
        (s.received P wire 1 (out, .stream who id, [])) = (.ok [], session) ∧
      session.protocol = some protocol ∧ protocol.hasRecvHeader = true ∧
      protocol.recvBuf.length = raw.length := by
  have hlong : s.cipher.ivLen ≤ wire.length := by
    by_contra hshort
    rw [decoded_of_lt (Nat.lt_of_not_le hshort)] at hd
    cases hd
  have hfew : Unfinished P who.userKey id ((s.plain P wire).2.process P raw).1 := by
    rw [Unfinished, StreamCipher.length_process]
    exact Or.inl hraw
  have hnext : s.decoded P (wire ++ raw) =
      .ok (out ++ [], .stream who id, ((s.plain P wire).2.process P raw).1) := by
    rw [(decoded_append hlong raw).2.2, hd]
    change Except.map _ (Reader.drain _ _ _) = _
    rw [List.nil_append, drain_unfinished _ hfew]
    rfl
  have hstep := decrypt_received hkey (fun _ => rfl) hd raw
  rw [hnext] at hstep
  obtain ⟨out', hout, hcall⟩ := hstep
  rw [hcall, ← List.append_cancel_left hout, received_streaming 1 hnext rfl]
  exact ⟨_, _, rfl, rfl, rfl, StreamCipher.length_process _ _ _⟩

/-- A header that is rejected stays in the buffer with all that has come behind it. -/
theorem decrypt_of_reject {s : ServerSession} (hs : s.Fresh P) {wire : List UInt8}
    (hlong : s.cipher.ivLen < wire.length) {e : CodecError}
    (h : headerAttempt P (s.params wire) (s.params wire).initial (s.plain P wire).1 =
      .reject e) :
    (decrypt P wire).run s = (.err e, s.opened (s.plain P wire).2
      (AuthAes128Md5.ofPhase P (s.params wire) .header (s.plain P wire).1 1)) := by
  have hopens : s.cipher.ivLen ≤ (s.recvIvBuf ++ wire).length := by
    rw [hs.recvIvBuf_nil, List.nil_append]
    omega
  have hopen := decrypt_of_open (P := P) hs.masterKey_length hs.decryptor_none hopens
  have hne : wire.drop s.cipher.ivLen ≠ [] := by
    rw [ne_eq, List.drop_eq_nil_iff]
    omega
  have hcall : (AuthAes128Md5.serverPostDecrypt P (s.plain P wire).1).run
      (AuthAes128Md5.ofPhase P (s.params wire) .header [] 1) =
      (.err e, AuthAes128Md5.ofPhase P (s.params wire) .header ([] ++ (s.plain P wire).1) 1) :=
    AuthAes128Md5.serverPostDecrypt_reject h
  rw [hopen, hs.recvIvBuf_nil, List.nil_append, decryptBody_of_ne_nil hne]
  exact congrArg (fun call => (call.1, s.opened (s.plain P wire).2 call.2)) hcall

/-- The call on no bytes that follows it succeeds and leaves the buffer as it is. -/
theorem empty_after_reject {s : ServerSession} (hs : s.Fresh P) {wire : List UInt8}
    (hlong : s.cipher.ivLen < wire.length) {e : CodecError}
    (h : headerAttempt P (s.params wire) (s.params wire).initial (s.plain P wire).1 =
      .reject e) :
    ((decrypt P []).run ((decrypt P wire).run s).2).1 = .ok [] ∧
      ∃ protocol, ((decrypt P []).run ((decrypt P wire).run s).2).2.protocol = some protocol ∧
        protocol.recvBuf = (s.plain P wire).1 := by
  rw [decrypt_of_reject hs hlong h]
  exact ⟨rfl, _, rfl, rfl⟩

end ServerSession

end SsrBackend
