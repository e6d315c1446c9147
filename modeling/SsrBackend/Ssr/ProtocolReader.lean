import SsrBackend.Ssr.ProtocolTurn

/-!
The receive side of the protocol as a resumable reader. The verdicts on the
header and on a data packet look only at bytes that have arrived, so they are
stable; `ValidAuth` and `ValidData` describe the packets that are accepted
without reference to a buffer or a turn.
-/

namespace SsrBackend

open Resumable

variable (P : Primitives)

theorem packetPos_append {buf : List UInt8} (h : 7 ≤ buf.length) (tail : List UInt8) :
    packetPos (buf ++ tail) = packetPos buf := by
  simp only [packetPos, window_append (show 5 ≤ buf.length by omega),
    window_append (show 7 ≤ buf.length by omega)]

theorem packetAttempt_stable {who : Identity} {recvId : UInt32} {buf : List UInt8}
    (tail : List UInt8) (h : packetAttempt P who recvId buf ≠ .wait) :
    packetAttempt P who recvId (buf ++ tail) = packetAttempt P who recvId buf := by
  unfold packetAttempt at h ⊢
  by_cases h4 : buf.length ≤ 4
  · simp [h4] at h
  have hlength : packetLength (buf ++ tail) = packetLength buf := by
    rw [packetLength, packetLength, window_append (by omega)]
  simp only [hlength, h4, ite_false, window_append (show 2 ≤ buf.length by omega),
    window_append (show 4 ≤ buf.length by omega),
    show ¬(buf ++ tail).length ≤ 4 by simp only [List.length_append]; omega] at h ⊢
  by_cases hmac : mac P (packetMacKey who.userKey recvId) (window buf 0 2) 2 = window buf 2 4
  swap
  · simp [hmac]
  by_cases hrange : 7 ≤ packetLength buf ∧ packetLength buf < maxPacket
  swap
  · simp [hmac, hrange]
  by_cases hlen : buf.length < packetLength buf
  · simp [hmac, hrange, hlen] at h
  have hlen' : ¬(buf ++ tail).length < packetLength buf := by
    simp only [List.length_append]; omega
  simp only [hlen, hlen', ite_false, packetPos_append (show 7 ≤ buf.length by omega),
    window_append (show packetLength buf - 4 ≤ buf.length by omega),
    window_append (show packetLength buf ≤ buf.length by omega)]

theorem headerBlock_append (userKey : List UInt8) {buf : List UInt8} (h : 27 ≤ buf.length)
    (tail : List UInt8) : headerBlock P userKey (buf ++ tail) = headerBlock P userKey buf := by
  simp only [headerBlock, window_append h]

theorem authAttempt_stable {who : Identity} {buf : List UInt8} (h27 : 27 ≤ buf.length)
    (tail : List UInt8) (h : authAttempt P who buf ≠ .wait) :
    authAttempt P who (buf ++ tail) = authAttempt P who buf := by
  have hl : headerLength P who.userKey (buf ++ tail) = headerLength P who.userKey buf := by
    simp only [headerLength, headerBlock_append P _ h27]
  have hr : headerRndLen P who.userKey (buf ++ tail) = headerRndLen P who.userKey buf := by
    simp only [headerRndLen, headerBlock_append P _ h27]
  simp only [authAttempt, hl, hr] at h ⊢
  by_cases hrange : 31 ≤ headerLength P who.userKey buf ∧
      headerLength P who.userKey buf < maxPacket
  swap
  · simp [hrange]
  by_cases hlen : buf.length < headerLength P who.userKey buf
  · simp [hrange, hlen] at h
  have hlen' : ¬(buf ++ tail).length < headerLength P who.userKey buf := by
    simp only [List.length_append]; omega
  simp only [hlen, hlen', ite_false,
    window_append (show headerLength P who.userKey buf - 4 ≤ buf.length by omega),
    window_append (show headerLength P who.userKey buf ≤ buf.length by omega)]

theorem headerAttempt_stable {par : Params} {current : Identity} {buf : List UInt8}
    (tail : List UInt8) (h : headerAttempt P par current buf ≠ .wait) :
    headerAttempt P par current (buf ++ tail) = headerAttempt P par current buf := by
  unfold headerAttempt at h ⊢
  by_cases h7 : buf.length < 7
  · simp [h7] at h
  have h7' : ¬(buf ++ tail).length < 7 := by simp only [List.length_append]; omega
  simp only [h7, h7', ite_false, window_append (show 1 ≤ buf.length by omega),
    window_append (show 7 ≤ buf.length by omega)] at h ⊢
  by_cases hchk : mac P par.macKey (window buf 0 1) 6 = window buf 1 7
  swap
  · simp [hchk]
  by_cases h31 : buf.length < 31
  · simp [hchk, h31] at h
  have h31' : ¬(buf ++ tail).length < 31 := by simp only [List.length_append]; omega
  have huid : headerUid (buf ++ tail) = headerUid buf := by
    rw [headerUid, headerUid, window_append (by omega)]
  simp only [hchk, ne_eq, not_true_eq_false, h31, h31', ite_false, huid,
    window_append (show 27 ≤ buf.length by omega),
    window_append (show 31 ≤ buf.length by omega)] at h ⊢
  by_cases hauth : mac P par.macKey (window buf 7 27) 4 = window buf 27 31
  · simp only [hauth, not_true_eq_false, ite_false] at h ⊢
    exact authAttempt_stable P (by omega) tail h
  · simp [hauth]

/-- A data packet that verifies under a user key and an id. -/
structure ValidData (userKey : List UInt8) (id : UInt32) (p : List UInt8) : Prop where
  lt_max : p.length < maxPacket
  length_field : packetLength p = p.length
  length_mac : mac P (packetMacKey userKey id) (window p 0 2) 2 = window p 2 4
  checksum : mac P (packetMacKey userKey id) (window p 0 (p.length - 4)) 4 =
    window p (p.length - 4) p.length
  padding : packetPos p + 4 ≤ p.length

/-- The payload of a data packet. -/
def dataPayload (p : List UInt8) : List UInt8 := window p (packetPos p) (p.length - 4)

/-- An auth packet that verifies: the head and header MACs under the IV and the
master key, the checksum under the key its uid selects. -/
structure ValidAuth (par : Params) (p : List UInt8) : Prop where
  header : HeaderVerified P par p
  lt_max : p.length < maxPacket
  length_field : headerLength P (par.select par.initial (headerUid p)).userKey p = p.length
  checksum : mac P (par.select par.initial (headerUid p)).userKey
    (window p 0 (p.length - 4)) 4 = window p (p.length - 4) p.length
  padding : 31 + headerRndLen P (par.select par.initial (headerUid p)).userKey p + 4 ≤ p.length

/-- The payload of an auth packet. -/
def authPayload (userKey p : List UInt8) : List UInt8 :=
  window p (31 + headerRndLen P userKey p) (p.length - 4)

variable {P}

theorem four_le_packetPos (buf : List UInt8) : 4 ≤ packetPos buf := by
  unfold packetPos
  split <;> omega

theorem ValidData.eight_le {userKey p : List UInt8} {id : UInt32}
    (h : ValidData P userKey id p) : 8 ≤ p.length := by
  have hpos := four_le_packetPos p
  have hpad := h.padding
  omega

theorem ValidAuth.thirtyFive_le {par : Params} {p : List UInt8} (h : ValidAuth P par p) :
    35 ≤ p.length := by
  have hpad := h.padding
  omega

theorem packetAttempt_valid {who : Identity} {id : UInt32} {p : List UInt8}
    (h : ValidData P who.userKey id p) :
    packetAttempt P who id p = .accept p.length (dataPayload p) (.stream who (id + 1)) := by
  have h8 := h.eight_le
  have hmax := h.lt_max
  have hpad := h.padding
  simp only [packetAttempt, h.length_field, h.length_mac, h.checksum, dataPayload, ne_eq,
    not_true_eq_false, ite_false, Nat.lt_irrefl, show ¬ p.length ≤ 4 by omega,
    show 7 ≤ p.length by omega, hmax, and_self, show ¬ p.length - 4 < packetPos p by omega]

theorem headerAttempt_valid {par : Params} {p : List UInt8} (h : ValidAuth P par p) :
    headerAttempt P par par.initial p =
      .accept p.length (authPayload P (par.select par.initial (headerUid p)).userKey p)
        (.stream (par.select par.initial (headerUid p)) 1) := by
  have h35 := h.thirtyFive_le
  have hmax := h.lt_max
  have hpad := h.padding
  obtain ⟨h31, hchk, hauth⟩ := h.header
  simp only [headerAttempt, authAttempt, h.length_field, h.checksum, hchk, hauth, authPayload,
    ne_eq, not_true_eq_false, ite_false, Nat.lt_irrefl, show ¬ p.length < 7 by omega,
    show ¬ p.length < 31 by omega, h31, hmax, and_self,
    show ¬ p.length - 4 < 31 + headerRndLen P (par.select par.initial (headerUid p)).userKey p
      by omega]

/-- An accepted data packet is valid. -/
theorem valid_of_packetAttempt {who : Identity} {id : UInt32} {buf out : List UInt8} {n : Nat}
    {next : Phase} (h : packetAttempt P who id buf = .accept n out next) :
    n ≤ buf.length ∧ ValidData P who.userKey id (buf.take n) ∧ out = dataPayload (buf.take n) ∧
      next = .stream who (id + 1) := by
  simp only [packetAttempt, Attempt.wait_else_eq_accept, Attempt.reject_else_eq_accept, ne_eq,
    Decidable.not_not, Attempt.accept.injEq] at h
  obtain ⟨h4, hmac, hrange, hlen, hsum, hpad, rfl, rfl, rfl⟩ := h
  have hle : packetLength buf ≤ buf.length := by omega
  have htake : (buf.take (packetLength buf)).length = packetLength buf := by
    rw [List.length_take]; omega
  have hpos : packetPos (buf.take (packetLength buf)) = packetPos buf := by
    simp only [packetPos, window_take buf 4 (show 5 ≤ packetLength buf by omega),
      window_take buf 5 (show 7 ≤ packetLength buf by omega)]
  refine ⟨hle, ⟨?_, ?_, ?_, ?_, ?_⟩, ?_, rfl⟩
  · omega
  · rw [htake, packetLength, window_take buf 0 (by omega)]
    rfl
  · rw [window_take buf 0 (by omega), window_take buf 2 (by omega)]
    exact hmac
  · rw [htake, window_take buf 0 (Nat.sub_le _ _), window_take buf _ (Nat.le_refl _)]
    exact hsum
  · rw [htake, hpos]
    omega
  · rw [dataPayload, htake, hpos, window_take buf _ (Nat.sub_le _ _)]

/-- An accepted auth packet is valid. -/
theorem valid_of_headerAttempt {par : Params} {buf out : List UInt8} {n : Nat} {next : Phase}
    (h : headerAttempt P par par.initial buf = .accept n out next) :
    n ≤ buf.length ∧ ValidAuth P par (buf.take n) ∧
      out = authPayload P (par.select par.initial (headerUid buf)).userKey (buf.take n) ∧
      next = .stream (par.select par.initial (headerUid buf)) 1 ∧
      headerUid (buf.take n) = headerUid buf := by
  simp only [headerAttempt, authAttempt, Attempt.wait_else_eq_accept,
    Attempt.reject_else_eq_accept, ne_eq, Decidable.not_not, Attempt.accept.injEq] at h
  obtain ⟨h7, hchk, h31, hauth, hrange, hlen, hsum, hpad, rfl, rfl, rfl⟩ := h
  generalize hwho : par.select par.initial (headerUid buf) = who at *
  have hle : headerLength P who.userKey buf ≤ buf.length := by omega
  have htake : (buf.take (headerLength P who.userKey buf)).length =
      headerLength P who.userKey buf := by
    rw [List.length_take]; omega
  have huid : headerUid (buf.take (headerLength P who.userKey buf)) = headerUid buf := by
    rw [headerUid, headerUid, window_take buf 7 (by omega)]
  have hblock : headerBlock P who.userKey (buf.take (headerLength P who.userKey buf)) =
      headerBlock P who.userKey buf := by
    rw [headerBlock, headerBlock, window_take buf 11 (by omega)]
  have hrnd : headerRndLen P who.userKey (buf.take (headerLength P who.userKey buf)) =
      headerRndLen P who.userKey buf := by
    rw [headerRndLen, headerRndLen, hblock]
  refine ⟨hle, ⟨⟨?_, ?_, ?_⟩, ?_, ?_, ?_, ?_⟩, ?_, rfl, huid⟩
  · omega
  · rw [window_take buf 0 (by omega), window_take buf 1 (by omega)]
    exact hchk
  · rw [window_take buf 7 (by omega), window_take buf 27 (by omega)]
    exact hauth
  · omega
  · rw [huid, hwho, htake, headerLength, hblock]
    rfl
  · rw [huid, hwho, htake, window_take buf 0 (Nat.sub_le _ _), window_take buf _ (Nat.le_refl _)]
    exact hsum
  · rw [huid, hwho, htake, hrnd]
    omega
  · rw [authPayload, htake, hrnd, window_take buf _ (Nat.sub_le _ _)]

def protocolAttempt (P : Primitives) (par : Params) :
    Phase → List UInt8 → Attempt CodecError Phase UInt8
  | .header, buf => headerAttempt P par par.initial buf
  | .stream who recvId, buf => packetAttempt P who recvId buf

/-- The packets a protocol layer reads, in any state of its header. -/
def protocolReader (P : Primitives) (par : Params) : Reader UInt8 UInt8 CodecError Phase where
  attempt := protocolAttempt P par
  used_pos {s buf n out s'} h := by
    cases s with
    | header =>
        obtain ⟨hle, hv, -⟩ := valid_of_headerAttempt h
        have h35 := hv.thirtyFive_le
        rw [List.length_take] at h35
        omega
    | stream who recvId =>
        obtain ⟨hle, hv, -⟩ := valid_of_packetAttempt h
        have h8 := hv.eight_le
        rw [List.length_take] at h8
        omega
  used_le {s buf n out s'} h := by
    cases s with
    | header => exact (valid_of_headerAttempt h).1
    | stream who recvId => exact (valid_of_packetAttempt h).1
  stable {s buf} tail h := by
    cases s with
    | header => exact headerAttempt_stable P tail h
    | stream who recvId => exact packetAttempt_stable P tail h

/-- Data packets with consecutive ids. -/
def ValidChain (P : Primitives) (userKey : List UInt8) : UInt32 → List (List UInt8) → Prop
  | _, [] => True
  | id, p :: packets => ValidData P userKey id p ∧ ValidChain P userKey (id + 1) packets

theorem succ_id (id : UInt32) (n : Nat) :
    id + UInt32.ofNat (n + 1) = id + 1 + UInt32.ofNat n := by
  rw [UInt32.ofNat_add, UInt32.add_comm (UInt32.ofNat n), ← UInt32.add_assoc]
  rfl

theorem ValidChain.getElem {userKey : List UInt8} {id : UInt32} {packets : List (List UInt8)}
    (h : ValidChain P userKey id packets) (i : Nat) (hi : i < packets.length) :
    ValidData P userKey (id + UInt32.ofNat i) packets[i] := by
  induction packets generalizing id i with
  | nil => simp at hi
  | cons p packets ih =>
      cases i with
      | zero => simpa using h.1
      | succ i =>
          have hrest := ih h.2 i (by simpa using hi)
          rw [succ_id]
          exact hrest

/-- The reader passes over a chain of valid packets and emits their payloads. -/
theorem drain_chain (par : Params) {who : Identity} {id : UInt32} {packets : List (List UInt8)}
    (h : ValidChain P who.userKey id packets) (rest : List UInt8) :
    (protocolReader P par).drain (.stream who id) (packets.flatten ++ rest) =
      ((protocolReader P par).drain (.stream who (id + UInt32.ofNat packets.length)) rest).map
        (Drained.after (packets.flatMap dataPayload)) := by
  induction packets generalizing id with
  | nil =>
      have hid : id + UInt32.ofNat ([] : List (List UInt8)).length = id := by simp
      rw [hid]
      exact (map_after_nil _).symm
  | cons p packets ih =>
      have hone : (protocolReader P par).attempt (.stream who id) p =
          .accept p.length (dataPayload p) (.stream who (id + 1)) := packetAttempt_valid h.1
      have hid : id + UInt32.ofNat (p :: packets).length =
          id + 1 + UInt32.ofNat packets.length := succ_id id packets.length
      rw [List.flatten_cons, List.append_assoc,
        Reader.drain_accept (Reader.accept_append (packets.flatten ++ rest) hone),
        List.drop_left, ih h.2, hid, map_after_after, List.flatMap_cons]

/-- What is read in the streaming phase is a chain of valid packets. -/
theorem chain_of_reads {par : Params} {who : Identity} {id : UInt32} {buf rest : List UInt8}
    {units : List (Phase × List UInt8 × List UInt8)} {last : Phase}
    (h : Reads (protocolReader P par) (.stream who id) buf units last rest) :
    ∃ packets, ValidChain P who.userKey id packets ∧ buf = packets.flatten ++ rest ∧
      (units.flatMap fun u => u.2.2) = packets.flatMap dataPayload ∧
      last = .stream who (id + UInt32.ofNat packets.length) := by
  generalize hs : Phase.stream who id = s at h
  induction h generalizing id with
  | done s rest => exact ⟨[], trivial, by simp, rfl, by simp [hs]⟩
  | @unit s s' t buf rest n out units ha more ih =>
      subst hs
      obtain ⟨hle, hv, hout, rfl⟩ := valid_of_packetAttempt ha
      obtain ⟨packets, hchain, hbuf, hpay, hlast⟩ := ih rfl
      refine ⟨buf.take n :: packets, ⟨hv, hchain⟩, ?_, ?_, ?_⟩
      · rw [List.flatten_cons, List.append_assoc, ← hbuf, List.take_append_drop]
      · rw [List.flatMap_cons, List.flatMap_cons, hpay, hout]
      · rw [hlast, List.length_cons, succ_id]

end SsrBackend
