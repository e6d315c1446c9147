import SsrBackend.Ssr.ProtocolReader

/-!
The whole receive call of the protocol layer. Its state is determined by the
phase of the reader and the unread bytes, and the call drains the reader over
what it has and what came in. After an error the layer is stuck: no later call
succeeds, although the source lets the caller go on.
-/

namespace SsrBackend

open Call Resumable

variable (P : Primitives)

theorem Params.select_select (par : Params) (current : Identity) (uid : Nat) :
    par.select (par.select current uid) uid = par.select current uid := by
  unfold Params.select
  cases par.users[uid]? with
  | some userKey => rfl
  | none =>
      by_cases hm : par.isMultiUser = 2
      · simp only [hm, ite_true]
      · simp only [hm, ite_false]

/-- Once a header has selected its identity, looking at it again changes nothing. -/
theorem headerAttempt_selected (par : Params) (current : Identity) (buf : List UInt8) :
    headerAttempt P par (par.select current (headerUid buf)) buf =
      headerAttempt P par current buf := by
  unfold headerAttempt
  rw [Params.select_select]

/-- A verified header stays verified, with the same uid. -/
theorem HeaderVerified.append {P : Primitives} {par : Params} {buf : List UInt8} (h : HeaderVerified P par buf)
    (incoming : List UInt8) :
    HeaderVerified P par (buf ++ incoming) ∧ headerUid (buf ++ incoming) = headerUid buf := by
  obtain ⟨h31, hchk, hauth⟩ := h
  refine ⟨⟨?_, ?_, ?_⟩, ?_⟩
  · rw [List.length_append]
    omega
  · rw [window_append (by omega), window_append (by omega)]
    exact hchk
  · rw [window_append (by omega), window_append (by omega)]
    exact hauth
  · rw [headerUid, headerUid, window_append (by omega)]

/-- A packet whose padding is bad stays bad under the next id. -/
theorem packetAttempt_after_padding {who : Identity} {id : UInt32} {buf : List UInt8}
    (h : packetAttempt P who id buf = .reject .dataPadding) :
    ∃ e, packetAttempt P who (id + 1) buf = .reject e := by
  unfold packetAttempt at h ⊢
  by_cases h4 : buf.length ≤ 4
  · simp [h4] at h
  by_cases hrange : 7 ≤ packetLength buf ∧ packetLength buf < maxPacket
  swap
  · simp only [h4, hrange, ite_false] at h ⊢
    split <;> exact ⟨_, rfl⟩
  by_cases hlen : buf.length < packetLength buf
  · simp only [h4, hrange, hlen, ite_false, ite_true, and_self, not_true_eq_false] at h
    split at h <;> cases h
  by_cases hpad : packetLength buf - 4 < packetPos buf
  · simp only [h4, hrange, hlen, hpad, ite_false, ite_true, and_self, not_true_eq_false]
    repeat' split
    all_goals exact ⟨_, rfl⟩
  · simp only [h4, hrange, hlen, hpad, ite_false, and_self, not_true_eq_false] at h
    split at h
    · cases h
    · split at h <;> cases h

namespace Phase

/-- Whom a phase has selected. A verified header selects before its packet is complete. -/
def identity (par : Params) (buf : List UInt8) : Phase → Identity
  | .header =>
      if HeaderVerified P par buf then par.select par.initial (headerUid buf) else par.initial
  | .stream who _ => who

def recvId : Phase → UInt32
  | .header => 1
  | .stream _ id => id

def hasRecvHeader : Phase → Bool
  | .header => false
  | .stream _ _ => true

end Phase

namespace AuthAes128Md5

theorem packetTurn_shrinks {s s' : AuthAes128Md5} {payload : List UInt8}
    (h4 : 4 < s.recvBuf.length) (h : (packetTurn P).run s = (.ok (some payload), s')) :
    s'.recvBuf.length < s.recvBuf.length := by
  rw [packetTurn_spec P h4] at h
  cases ha : packetAttempt P s.identity s.recvId s.recvBuf with
  | wait => simp [ha] at h
  | reject e => simp [ha] at h
  | accept n out next =>
      have hpos := (protocolReader P s.params).used_pos (s := .stream s.identity s.recvId) ha
      simp only [ha, Prod.mk.injEq] at h
      rw [← h.2]
      simp only [List.length_drop]
      omega

/-- The `while` loop over the streaming packets. -/
def packetLoop (out : List UInt8) (s : AuthAes128Md5) :
    Outcome CodecError (List UInt8) × AuthAes128Md5 :=
  if _h4 : 4 < s.recvBuf.length then
    match _h : (packetTurn P).run s with
    | (.ok (some payload), s') => packetLoop (out ++ payload) s'
    | (.ok none, s') => (.ok out, s')
    | (.err e, s') => (.err e, s')
    | (.panic, s') => (.panic, s')
  else (.ok out, s)
termination_by s.recvBuf.length
decreasing_by exact packetTurn_shrinks P _h4 _h

/-- `self.recv_buf.extend_from_slice(incoming)`. -/
def extendRecv (incoming : List UInt8) (s : AuthAes128Md5) : AuthAes128Md5 :=
  { s with recvBuf := s.recvBuf ++ incoming }

def serverPostDecrypt (incoming : List UInt8) : Call CodecError AuthAes128Md5 (List UInt8) := do
  modify (extendRecv incoming)
  if (← get).hasRecvHeader then
    ⟨packetLoop P []⟩
  else
    match ← authHeader P with
    | none => return []
    | some out => ⟨packetLoop P out⟩

/-- The layer whose reader is in `phase` with `buf` unread. -/
def ofPhase (par : Params) (phase : Phase) (buf : List UInt8) (packId : UInt32) :
    AuthAes128Md5 where
  masterKey := par.masterKey
  userKey := (phase.identity P par buf).userKey
  users := par.users
  isMultiUser := par.isMultiUser
  userId := (phase.identity P par buf).userId
  aesKey := authKey P (phase.identity P par buf).userKey
  recvIv := par.recvIv
  recvBuf := buf
  hasRecvHeader := phase.hasRecvHeader
  recvId := phase.recvId
  packId := packId

theorem new_eq {m : Type → Type} [Monad m] [LawfulMonad m] [MonadPanic m] (par : Params) :
    (new P par.masterKey par.recvIv par.users par.isMultiUser : m AuthAes128Md5) =
      pure (ofPhase P par .header [] 1) := by
  have hv : ¬ HeaderVerified P par [] := fun h => by simpa using h.1
  simp only [new, deriveAesKey_eq, pure_bind, ofPhase, Phase.identity, hv, ite_false]
  rfl

/-- No later call succeeds: what stands at the front of the buffer is rejected. -/
def Stuck (s : AuthAes128Md5) : Prop :=
  s.Keyed P ∧ if s.hasRecvHeader then
    ∃ e, packetAttempt P s.identity s.recvId s.recvBuf = .reject e
  else ∃ e, headerAttempt P s.params s.identity s.recvBuf = .reject e

/-- What a receive call leaves behind when its reader drains to `result`. -/
def Received (par : Params) (packId : UInt32) (out : List UInt8)
    (call : Outcome CodecError (List UInt8) × AuthAes128Md5) :
    Except CodecError (Drained UInt8 UInt8 Phase) → Prop
  | .ok r => call = (.ok (out ++ r.1), ofPhase P par r.2.1 r.2.2 packId)
  | .error e => call.1 = .err e ∧ call.2.Stuck P ∧ call.2.packId = packId

theorem Received.after {par : Params} {packId : UInt32} {out payload : List UInt8}
    {call : Outcome CodecError (List UInt8) × AuthAes128Md5}
    {result : Except CodecError (Drained UInt8 UInt8 Phase)}
    (h : Received P par packId (out ++ payload) call result) :
    Received P par packId out call (result.map (Drained.after payload)) := by
  cases result with
  | error e => exact h
  | ok r =>
      simp only [Except.map, Received, Drained.after, ← List.append_assoc] at h ⊢
      exact h

variable {P}

theorem packetLoop_of_wait {s : AuthAes128Md5}
    (h : packetAttempt P s.identity s.recvId s.recvBuf = .wait) (out : List UInt8) :
    packetLoop P out s = (.ok out, s) := by
  rw [packetLoop]
  by_cases h4 : 4 < s.recvBuf.length
  · have hturn : (packetTurn P).run s = (.ok none, s) := by rw [packetTurn_spec P h4, h]
    rw [dif_pos h4]
    split <;> simp_all
  · rw [dif_neg h4]

theorem four_lt_of_packetAttempt {who : Identity} {id : UInt32} {buf : List UInt8}
    (h : packetAttempt P who id buf ≠ .wait) : 4 < buf.length := by
  by_contra h4
  simp [packetAttempt, show buf.length ≤ 4 by omega] at h

theorem packetLoop_of_reject {s : AuthAes128Md5} {e : CodecError}
    (h : packetAttempt P s.identity s.recvId s.recvBuf = .reject e) (out : List UInt8) :
    packetLoop P out s =
      (.err e, if e = .dataPadding then { s with recvId := s.recvId + 1 } else s) := by
  have hw : packetAttempt P s.identity s.recvId s.recvBuf ≠ .wait := by simp [h]
  have h4 := four_lt_of_packetAttempt hw
  have hturn := packetTurn_spec P h4
  rw [h] at hturn
  rw [packetLoop, dif_pos h4]
  split <;> simp_all

theorem packetLoop_of_accept {s : AuthAes128Md5} {n : Nat} {payload : List UInt8} {next : Phase}
    (h : packetAttempt P s.identity s.recvId s.recvBuf = .accept n payload next)
    (out : List UInt8) :
    packetLoop P out s = packetLoop P (out ++ payload)
      { s with recvId := s.recvId + 1, recvBuf := s.recvBuf.drop n } := by
  have hw : packetAttempt P s.identity s.recvId s.recvBuf ≠ .wait := by simp [h]
  have h4 := four_lt_of_packetAttempt hw
  have hturn := packetTurn_spec P h4
  rw [h] at hturn
  rw [packetLoop, dif_pos h4]
  split <;> simp_all

/-- A layer whose next packet is rejected is stuck once the loop has seen it. -/
theorem stuck_of_packet_reject {s : AuthAes128Md5} {e : CodecError} (hk : s.Keyed P)
    (hh : s.hasRecvHeader = true)
    (h : packetAttempt P s.identity s.recvId s.recvBuf = .reject e) (out : List UInt8) :
    (packetLoop P out s).1 = .err e ∧ (packetLoop P out s).2.Stuck P ∧
      (packetLoop P out s).2.packId = s.packId := by
  rw [packetLoop_of_reject h]
  by_cases hpad : e = .dataPadding
  · subst hpad
    obtain ⟨e', he'⟩ := packetAttempt_after_padding P h
    refine ⟨rfl, ⟨hk, ?_⟩, rfl⟩
    simp only [ite_true, hh]
    exact ⟨e', he'⟩
  · simp only [hpad, ite_false, Stuck, hh, ite_true]
    exact ⟨trivial, ⟨hk, e, h⟩, trivial⟩

theorem packetLoop_spec (par : Params) (who : Identity) (id : UInt32) (buf : List UInt8)
    (packId : UInt32) (out : List UInt8) :
    Received P par packId out (packetLoop P out (ofPhase P par (.stream who id) buf packId))
      ((protocolReader P par).drain (.stream who id) buf) := by
  generalize hs : Phase.stream who id = phase
  -- along the recursion of the drain; the loop makes the same turns
  induction phase, buf using Reader.drain.induct (protocolReader P par) generalizing id out with
  | case1 phase buf h =>
      subst hs
      rw [Reader.drain_wait h, packetLoop_of_wait (s := ofPhase P par (.stream who id) buf packId) h]
      simp [Received]
  | case2 phase buf e h =>
      subst hs
      rw [Reader.drain_reject h]
      exact stuck_of_packet_reject (s := ofPhase P par (.stream who id) buf packId) rfl rfl h out
  | case3 phase buf n payload next h ih =>
      subst hs
      obtain ⟨-, -, -, rfl⟩ := valid_of_packetAttempt h
      rw [Reader.drain_accept h,
        packetLoop_of_accept (s := ofPhase P par (.stream who id) buf packId) h]
      exact Received.after P (ih (id + 1) (out ++ payload) rfl)

/-- The loop consumes bytes and counts packets, and changes nothing else. -/
theorem packetLoop_frame (out : List UInt8) (s : AuthAes128Md5) :
    ∃ recvId recvBuf, (packetLoop P out s).2 = { s with recvId := recvId, recvBuf := recvBuf } := by
  generalize hn : s.recvBuf.length = n
  induction n using Nat.strongRecOn generalizing out s with
  | ind n ih =>
      cases ha : packetAttempt P s.identity s.recvId s.recvBuf with
      | wait =>
          rw [packetLoop_of_wait ha]
          exact ⟨s.recvId, s.recvBuf, rfl⟩
      | reject e =>
          rw [packetLoop_of_reject ha]
          by_cases he : e = .dataPadding
          · exact ⟨s.recvId + 1, s.recvBuf, by rw [if_pos he]⟩
          · exact ⟨s.recvId, s.recvBuf, by rw [if_neg he]⟩
      | accept k payload next =>
          have hpos := (protocolReader P s.params).used_pos (s := .stream s.identity s.recvId) ha
          have hle := (protocolReader P s.params).used_le (s := .stream s.identity s.recvId) ha
          rw [packetLoop_of_accept ha]
          obtain ⟨recvId, recvBuf, h⟩ := ih (s.recvBuf.drop k).length
            (by rw [List.length_drop]; omega) (out ++ payload)
            { s with recvId := s.recvId + 1, recvBuf := s.recvBuf.drop k } rfl
          exact ⟨recvId, recvBuf, h⟩

theorem serverPostDecrypt_stream {s : AuthAes128Md5} (h : s.hasRecvHeader = true)
    (incoming : List UInt8) :
    (serverPostDecrypt P incoming).run s = packetLoop P [] (s.extendRecv incoming) := by
  simp only [serverPostDecrypt, Call.run_modify_bind, Call.run_get_bind]
  rw [if_pos (show (s.extendRecv incoming).hasRecvHeader = true from h)]

theorem serverPostDecrypt_header {s : AuthAes128Md5} (h : s.hasRecvHeader = false)
    (hk : s.Keyed P) (incoming : List UInt8) :
    (serverPostDecrypt P incoming).run s =
      match headerAttempt P s.params s.identity (s.recvBuf ++ incoming) with
      | .wait => (.ok [], (s.extendRecv incoming).seen P)
      | .reject e => (.err e, (s.extendRecv incoming).seen P)
      | .accept n out _ => packetLoop P out { (s.extendRecv incoming).seen P with
          recvBuf := (s.recvBuf ++ incoming).drop n, hasRecvHeader := true } := by
  have hf : ¬ (s.extendRecv incoming).hasRecvHeader = true := by simp [extendRecv, h]
  have hspec := authHeader_spec P (s := s.extendRecv incoming) hk
  have hattempt : headerAttempt P (s.extendRecv incoming).params (s.extendRecv incoming).identity
      (s.extendRecv incoming).recvBuf =
      headerAttempt P s.params s.identity (s.recvBuf ++ incoming) := rfl
  simp only [serverPostDecrypt, Call.run_modify_bind, Call.run_get_bind]
  rw [if_neg hf, Call.run_bind, hspec, hattempt]
  cases headerAttempt P s.params s.identity (s.recvBuf ++ incoming) <;> rfl

/-- Looking at the header of a layer in the header phase. -/
theorem seen_ofPhase (par : Params) (buf incoming : List UInt8) (packId : UInt32) :
    ((ofPhase P par .header buf packId).extendRecv incoming).seen P =
      ofPhase P par .header (buf ++ incoming) packId := by
  by_cases hv : HeaderVerified P par buf
  · obtain ⟨hv', huid⟩ := hv.append incoming
    have hsel : par.select (par.select par.initial (headerUid buf)) (headerUid buf) =
        par.select par.initial (headerUid buf) := par.select_select _ _
    simp only [seen, extendRecv, params, ofPhase, Phase.identity, hv, hv', ite_true, identity,
      become, huid]
    exact congrArg (fun who : Identity => { ofPhase P par .header (buf ++ incoming) packId with
      userKey := who.userKey, userId := who.userId, aesKey := authKey P who.userKey }) hsel
  · by_cases hv' : HeaderVerified P par (buf ++ incoming)
    · simp only [seen, extendRecv, params, ofPhase, Phase.identity, hv, hv', ite_true, ite_false,
        identity, become]
    · simp only [seen, extendRecv, params, ofPhase, Phase.identity, hv, hv', ite_false]

theorem headerAttempt_identity (par : Params) (buf incoming : List UInt8) :
    headerAttempt P par (Phase.header.identity P par buf) (buf ++ incoming) =
      headerAttempt P par par.initial (buf ++ incoming) := by
  by_cases hv : HeaderVerified P par buf
  · simp only [Phase.identity, hv, ite_true]
    rw [← (hv.append incoming).2, headerAttempt_selected]
  · simp only [Phase.identity, hv, ite_false]

theorem verified_of_accept {par : Params} {current : Identity} {buf out : List UInt8} {n : Nat}
    {next : Phase} (h : headerAttempt P par current buf = .accept n out next) :
    HeaderVerified P par buf := by
  simp only [headerAttempt, Attempt.wait_else_eq_accept, Attempt.reject_else_eq_accept, ne_eq,
    Decidable.not_not] at h
  exact ⟨by omega, h.2.1, h.2.2.2.1⟩

theorem stuck_of_header_reject {par : Params} {buf : List UInt8} {packId : UInt32}
    {e : CodecError} (h : headerAttempt P par par.initial buf = .reject e) :
    (ofPhase P par .header buf packId).Stuck P := by
  refine ⟨rfl, ?_⟩
  have hid := headerAttempt_identity (P := P) par buf []
  rw [List.append_nil] at hid
  exact ⟨e, hid.trans h⟩

theorem serverPostDecrypt_spec (par : Params) (phase : Phase) (buf : List UInt8)
    (packId : UInt32) (incoming : List UInt8) :
    Received P par packId []
      ((serverPostDecrypt P incoming).run (ofPhase P par phase buf packId))
      ((protocolReader P par).drain phase (buf ++ incoming)) := by
  cases phase with
  | stream who id =>
      rw [serverPostDecrypt_stream rfl]
      exact packetLoop_spec par who id (buf ++ incoming) packId []
  | header =>
      have hattempt : headerAttempt P (ofPhase P par .header buf packId).params
          (ofPhase P par .header buf packId).identity (buf ++ incoming) =
          headerAttempt P par par.initial (buf ++ incoming) := headerAttempt_identity par buf incoming
      have hcall := serverPostDecrypt_header (P := P) (s := ofPhase P par .header buf packId)
        rfl rfl incoming
      rw [seen_ofPhase] at hcall
      rw [hcall]
      change Received P par packId [] (match headerAttempt P (ofPhase P par .header buf packId).params
          (ofPhase P par .header buf packId).identity (buf ++ incoming) with
        | .wait => _
        | .reject e => _
        | .accept n out _ => _) _
      rw [hattempt]
      cases ha : headerAttempt P par par.initial (buf ++ incoming) with
      | wait =>
          rw [Reader.drain_wait (R := protocolReader P par) (s := .header) ha]
          rfl
      | reject e =>
          rw [Reader.drain_reject (R := protocolReader P par) (s := .header) ha]
          exact ⟨rfl, stuck_of_header_reject ha, rfl⟩
      | accept n out next =>
          obtain ⟨-, -, -, rfl, -⟩ := valid_of_headerAttempt ha
          rw [Reader.drain_accept (R := protocolReader P par) (s := .header) ha]
          have hloop := packetLoop_spec (P := P) par
            (par.select par.initial (headerUid (buf ++ incoming))) 1
            ((buf ++ incoming).drop n) packId out
          have hstate : { ofPhase P par .header (buf ++ incoming) packId with
              recvBuf := (buf ++ incoming).drop n, hasRecvHeader := true } =
              ofPhase P par (.stream (par.select par.initial (headerUid (buf ++ incoming))) 1)
                ((buf ++ incoming).drop n) packId := by
            simp only [ofPhase, Phase.identity, verified_of_accept ha, ite_true]
            rfl
          exact Received.after P (by rw [← hstate] at hloop; exact hloop)

/-- A layer whose header is rejected is stuck once it has looked at it. -/
theorem stuck_seen {s : AuthAes128Md5} {e : CodecError} (hk : s.Keyed P)
    (hh : s.hasRecvHeader = false)
    (h : headerAttempt P s.params s.identity s.recvBuf = .reject e) : (s.seen P).Stuck P := by
  unfold seen
  by_cases hv : HeaderVerified P s.params s.recvBuf
  · rw [if_pos hv]
    refine ⟨rfl, ?_⟩
    simp only [become, hh, Bool.false_eq_true, ite_false]
    exact ⟨e, (headerAttempt_selected P s.params s.identity s.recvBuf).trans h⟩
  · rw [if_neg hv]
    refine ⟨hk, ?_⟩
    simp only [hh, Bool.false_eq_true, ite_false]
    exact ⟨e, h⟩

theorem serverPostDecrypt_stuck {s : AuthAes128Md5} (h : s.Stuck P) (incoming : List UInt8) :
    ∃ e, ((serverPostDecrypt P incoming).run s).1 = .err e ∧
      ((serverPostDecrypt P incoming).run s).2.Stuck P := by
  obtain ⟨hk, hstuck⟩ := h
  cases hh : s.hasRecvHeader with
  | true =>
      simp only [hh, ite_true] at hstuck
      obtain ⟨e, he⟩ := hstuck
      have hmore : packetAttempt P s.identity s.recvId (s.recvBuf ++ incoming) = .reject e := by
        rw [packetAttempt_stable P incoming (by simp [he]), he]
      have hloop := stuck_of_packet_reject (s := s.extendRecv incoming) hk hh hmore []
      rw [serverPostDecrypt_stream hh]
      exact ⟨e, hloop.1, hloop.2.1⟩
  | false =>
      simp only [hh, Bool.false_eq_true, ite_false] at hstuck
      obtain ⟨e, he⟩ := hstuck
      have hmore : headerAttempt P s.params s.identity (s.recvBuf ++ incoming) = .reject e := by
        rw [headerAttempt_stable P incoming (by simp [he]), he]
      rw [serverPostDecrypt_header hh hk, hmore]
      exact ⟨e, rfl, stuck_seen (s := s.extendRecv incoming) hk hh hmore⟩

/-- Receiving keeps the AES key in step with the user key, and packs nothing. -/
theorem serverPostDecrypt_keeps {s : AuthAes128Md5} (hk : s.Keyed P) (incoming : List UInt8) :
    ((serverPostDecrypt P incoming).run s).2.Keyed P ∧
      ((serverPostDecrypt P incoming).run s).2.packId = s.packId := by
  have hseen : ((s.extendRecv incoming).seen P).Keyed P ∧
      ((s.extendRecv incoming).seen P).packId = s.packId := by
    unfold seen
    by_cases hv : HeaderVerified P (s.extendRecv incoming).params (s.extendRecv incoming).recvBuf
    · rw [if_pos hv]
      exact ⟨rfl, rfl⟩
    · rw [if_neg hv]
      exact ⟨hk, rfl⟩
  cases hh : s.hasRecvHeader with
  | true =>
      obtain ⟨recvId, recvBuf, hloop⟩ := packetLoop_frame (P := P) [] (s.extendRecv incoming)
      rw [serverPostDecrypt_stream hh, hloop]
      exact ⟨hk, rfl⟩
  | false =>
      rw [serverPostDecrypt_header hh hk]
      cases headerAttempt P s.params s.identity (s.recvBuf ++ incoming) with
      | wait => exact hseen
      | reject e => exact hseen
      | accept n out next =>
          obtain ⟨recvId, recvBuf, hloop⟩ := packetLoop_frame (P := P) out
            { (s.extendRecv incoming).seen P with
              recvBuf := (s.recvBuf ++ incoming).drop n, hasRecvHeader := true }
          simp only [hloop]
          exact hseen

end AuthAes128Md5

end SsrBackend
