import Mathlib.Data.List.Induction
import SsrBackend.Ssr.ClientCodec

/-!
What a session releases. Over any run of `decrypt` calls the output depends on
the wire bytes alone, and it is the payload of packets that verify: the auth
packet first, then data packets under consecutive ids. A run that goes on after
an error releases nothing more.
-/

namespace SsrBackend

open Resumable

variable {P : Primitives}

/-- The auth packet at the front of `buf` has not arrived completely. -/
def AuthIncomplete (P : Primitives) (par : Params) (buf : List UInt8) : Prop :=
  buf.length < 31 ∨
    buf.length < headerLength P (par.select par.initial (headerUid buf)).userKey buf

/-- The start of a data packet, as far as it has arrived: once the length field is
there it verifies, and the rest of the packet is missing. -/
def Unfinished (P : Primitives) (userKey : List UInt8) (id : UInt32) (buf : List UInt8) : Prop :=
  buf.length ≤ 4 ∨
    mac P (packetMacKey userKey id) (window buf 0 2) 2 = window buf 2 4 ∧
      7 ≤ packetLength buf ∧ packetLength buf < maxPacket ∧ buf.length < packetLength buf

theorem incomplete_of_header_wait {par : Params} {buf : List UInt8}
    (h : headerAttempt P par par.initial buf = .wait) : AuthIncomplete P par buf := by
  by_cases h31 : buf.length < 31
  · exact Or.inl h31
  · refine Or.inr ?_
    by_contra hlen
    simp only [headerAttempt, authAttempt, h31, hlen, ite_false,
      show ¬ buf.length < 7 by omega] at h
    repeat' split at h
    all_goals cases h

theorem packetAttempt_wait_iff {who : Identity} {id : UInt32} {buf : List UInt8} :
    packetAttempt P who id buf = .wait ↔ Unfinished P who.userKey id buf := by
  unfold packetAttempt Unfinished
  by_cases h4 : buf.length ≤ 4
  · simp only [h4, ite_true, true_or]
  simp only [h4, ite_false, false_or]
  by_cases hmac : mac P (packetMacKey who.userKey id) (window buf 0 2) 2 = window buf 2 4
  swap
  · simp [hmac]
  by_cases hrange : 7 ≤ packetLength buf ∧ packetLength buf < maxPacket
  swap
  · simp only [hmac, hrange, not_false_eq_true, ne_eq, not_true_eq_false, ite_false, ite_true,
      reduceCtorEq, true_and, false_iff, not_and]
    intro h7 hmax
    exact absurd ⟨h7, hmax⟩ hrange
  by_cases hlen : buf.length < packetLength buf
  · simp [hmac, hrange, hlen]
  · simp only [hmac, hrange, hlen, ne_eq, not_true_eq_false, ite_false, and_self, and_false,
      iff_false]
    intro h
    repeat' split at h
    all_goals cases h

theorem drain_unfinished (par : Params) {who : Identity} {id : UInt32} {buf : List UInt8}
    (h : Unfinished P who.userKey id buf) :
    (protocolReader P par).drain (.stream who id) buf = .ok ([], .stream who id, buf) :=
  Reader.drain_wait (packetAttempt_wait_iff.mpr h)

/-- A selected user id is the uid that was looked up, and the key is its entry. -/
theorem Params.select_userId {par : Params} {uid u : Nat}
    (h : (par.select par.initial uid).userId = some u) :
    u = uid ∧ par.users[u]? = some (par.select par.initial uid).userKey := by
  unfold Params.select at h ⊢
  cases hu : par.users[uid]? with
  | some userKey =>
      simp only [hu, Option.some.injEq] at h
      subst h
      exact ⟨rfl, hu⟩
  | none =>
      simp only [hu] at h
      split at h <;> cases h

/-- The factorisation of a decrypted stream that the protocol reader has read. -/
structure Factors (P : Primitives) (par : Params) (stream : List UInt8) (out : List UInt8)
    (who : Identity) where
  auth : List UInt8
  packets : List (List UInt8)
  residual : List UInt8
  stream_eq : stream = auth ++ packets.flatten ++ residual
  auth_valid : ValidAuth P par auth
  selected : par.select par.initial (headerUid auth) = who
  packets_valid : ValidChain P who.userKey 1 packets
  residual_unfinished :
    Unfinished P who.userKey (1 + UInt32.ofNat packets.length) residual
  out_eq : out = authPayload P who.userKey auth ++ packets.flatMap dataPayload

theorem factors_of_drain {par : Params} {stream : List UInt8} {r : Drained UInt8 UInt8 Phase}
    (h : (protocolReader P par).drain .header stream = .ok r) :
    (AuthIncomplete P par stream ∧ r = ([], .header, stream)) ∨
      ∃ who id, r.2.1 = .stream who id ∧ Nonempty (Factors P par stream r.1 who) := by
  cases ha : headerAttempt P par par.initial stream with
  | wait =>
      left
      rw [Reader.drain_wait (R := protocolReader P par) (s := .header) ha] at h
      exact ⟨incomplete_of_header_wait ha, (Except.ok.inj h).symm⟩
  | reject e =>
      rw [Reader.drain_reject (R := protocolReader P par) (s := .header) ha] at h
      cases h
  | accept n out next =>
      right
      obtain ⟨hle, hvalid, hout, rfl, huid⟩ := valid_of_headerAttempt ha
      rw [Reader.drain_accept (R := protocolReader P par) (s := .header) ha] at h
      cases hd : (protocolReader P par).drain
          (.stream (par.select par.initial (headerUid stream)) 1) (stream.drop n) with
      | error e => simp [hd, Except.map] at h
      | ok r' =>
          simp only [hd, Except.map, Except.ok.injEq] at h
          subst h
          obtain ⟨units, hreads, hpay⟩ := reads_of_drain hd
          obtain ⟨packets, hchain, hbuf, hunits, hlast⟩ := chain_of_reads hreads
          have hsettled := Reader.drain_settled hd
          rw [hlast] at hsettled
          refine ⟨_, _, hlast, ⟨⟨stream.take n, packets, r'.2.2, ?_, hvalid, ?_, hchain,
            packetAttempt_wait_iff.mp hsettled, ?_⟩⟩⟩
          · rw [List.append_assoc, ← hbuf, List.take_append_drop]
          · rw [huid]
          · simp only [Drained.after, hpay, hunits, hout]

namespace ServerSession

/-- A run from a fresh session takes in the whole wire or ends up stuck. -/
theorem feed_reaches {s : ServerSession} (hs : s.Fresh P) (chunks : List (List UInt8)) :
    (∃ r, s.decoded P chunks.flatten = .ok r ∧
      (feed P s chunks).2 = s.received P chunks.flatten 1 r) ∨ (feed P s chunks).2.Stuck P := by
  induction chunks using List.reverseRecOn with
  | nil => exact Or.inl ⟨_, s.decoded_nil, (hs.received_nil _).symm⟩
  | append_singleton chunks raw ih =>
      rw [feed_append, List.flatten_append, List.flatten_singleton]
      change (∃ r, _ ∧ ((decrypt P raw).run (feed P s chunks).2).2 = _) ∨
        ((decrypt P raw).run (feed P s chunks).2).2.Stuck P
      rcases ih with ⟨r, hr, hstate⟩ | hstuck
      · have hstep := decrypt_received hs.masterKey_length (fun _ => rfl) hr raw
        rw [hstate]
        cases hd : s.decoded P (chunks.flatten ++ raw) with
        | ok r' =>
            rw [hd] at hstep
            obtain ⟨out, -, hcall⟩ := hstep
            exact Or.inl ⟨r', rfl, by rw [hcall]⟩
        | error e =>
            rw [hd] at hstep
            exact Or.inr hstep.2
      · rcases decrypt_stuck hstuck raw with ⟨-, hcall⟩ | ⟨e, -, hnext⟩
        · rw [hcall]
          exact Or.inr hstuck
        · exact Or.inr hnext

/-- The decoding a run of successful calls has made. -/
theorem Fresh.decoded_of_ok {s : ServerSession} (hs : s.Fresh P)
    {chunks outs : List (List UInt8)} (hok : (feed P s chunks).1 = outs.map .ok) :
    ∃ r, s.decoded P chunks.flatten = .ok r ∧ r.1 = outs.flatten ∧
      (feed P s chunks).2 = s.received P chunks.flatten 1 r := by
  have h := hs.feed_spec chunks
  cases hd : s.decoded P chunks.flatten with
  | error e =>
      rw [hd, hok] at h
      simp at h
  | ok r =>
      rw [hd] at h
      obtain ⟨outs', houts, hfeed⟩ := h
      have heq : outs' = outs := by
        rw [hfeed] at hok
        exact List.map_injective_iff.mpr (fun a b hab => Outcome.ok.inj hab) hok
      rw [← heq]
      exact ⟨r, rfl, houts, by rw [hfeed]⟩

/-- The whole wire in one call, or in calls of any sizes. -/
theorem decrypt_segmentation {s : ServerSession} (hs : s.Fresh P) (chunks : List (List UInt8)) :
    ((∃ e, ((decrypt P chunks.flatten).run s).1 = .err e) ↔
      ∃ e, .err e ∈ (feed P s chunks).1) ∧
    ((∃ out, ((decrypt P chunks.flatten).run s).1 = .ok out) ↔
      ∃ outs : List (List UInt8), (feed P s chunks).1 = outs.map .ok) ∧
    ∀ out, ((decrypt P chunks.flatten).run s).1 = .ok out →
      ∀ outs : List (List UInt8), (feed P s chunks).1 = outs.map .ok →
        outs.flatten = out ∧ (feed P s chunks).2 = ((decrypt P chunks.flatten).run s).2 := by
  have hone := hs.feed_spec [chunks.flatten]
  have hmany := hs.feed_spec chunks
  rw [List.flatten_singleton] at hone
  cases hd : s.decoded P chunks.flatten with
  | error e =>
      rw [hd] at hone hmany
      have herr : ((decrypt P chunks.flatten).run s).1 = .err e :=
        (List.mem_singleton.mp hone).symm
      refine ⟨⟨fun _ => ⟨e, hmany⟩, fun _ => ⟨e, herr⟩⟩, ⟨?_, ?_⟩, ?_⟩
      · rintro ⟨out, hout⟩
        rw [herr] at hout
        cases hout
      · rintro ⟨outs, houts⟩
        rw [houts] at hmany
        simp at hmany
      · intro out hout
        rw [herr] at hout
        cases hout
  | ok r =>
      rw [hd] at hone hmany
      obtain ⟨single, hsingle, hcall⟩ := hone
      obtain ⟨outs, houts, hfeed⟩ := hmany
      have hres : [((decrypt P chunks.flatten).run s).1] = single.map .ok := congrArg Prod.fst hcall
      have hstate : ((decrypt P chunks.flatten).run s).2 = s.received P chunks.flatten 1 r :=
        congrArg Prod.snd hcall
      obtain ⟨out, rfl, hout⟩ := List.map_eq_singleton_iff.mp hres.symm
      rw [← hout, hstate, hfeed]
      refine ⟨⟨?_, ?_⟩, ⟨fun _ => ⟨outs, rfl⟩, fun _ => ⟨out, rfl⟩⟩, ?_⟩
      · rintro ⟨e, he⟩
        cases he
      · rintro ⟨e, he⟩
        simp at he
      · intro out' hout' outs' houts'
        have heq : outs = outs' :=
          List.map_injective_iff.mpr (fun a b hab => Outcome.ok.inj hab) houts'
        have heq' : out = out' := Outcome.ok.inj hout'
        subst heq heq'
        exact ⟨by rw [← houts, hsingle, List.flatten_singleton], rfl⟩

theorem decrypt_segmentation_split :
    (∃ e, ((decrypt .standard [1, 2, 3]).run ClientCodec.testSession).1 = .err e) ↔
      ∃ e, .err e ∈ (feed .standard ClientCodec.testSession [[1], [], [2, 3]]).1 :=
  (decrypt_segmentation ClientCodec.testSession_fresh [[1], [], [2, 3]]).1

/-- Everything released over a run of successful calls is the payload of packets
that verify. -/
theorem decrypt_sound {s : ServerSession} (hs : s.Fresh P) {chunks outs : List (List UInt8)}
    (hok : (feed P s chunks).1 = outs.map .ok) :
    (AuthIncomplete P (s.params chunks.flatten) (s.plain P chunks.flatten).1 ∧
      outs.flatten = []) ∨
    ∃ (auth : List UInt8) (packets : List (List UInt8)) (residual : List UInt8) (who : Identity),
      (s.plain P chunks.flatten).1 = auth ++ packets.flatten ++ residual ∧
      35 ≤ auth.length ∧ auth.length ≤ 8191 ∧ ValidAuth P (s.params chunks.flatten) auth ∧
      (s.params chunks.flatten).select (s.params chunks.flatten).initial (headerUid auth) = who ∧
      (∀ i (hi : i < packets.length), 8 ≤ packets[i].length ∧ packets[i].length ≤ 8191 ∧
        ValidData P who.userKey (UInt32.ofNat (i + 1)) packets[i]) ∧
      outs.flatten = authPayload P who.userKey auth ++ packets.flatMap dataPayload ∧
      (feed P s chunks).2.userId = who.userId ∧
      ∀ u, (feed P s chunks).2.userId = some u → s.users[u]? = some who.userKey := by
  obtain ⟨r, hd, houts, hstate⟩ := hs.decoded_of_ok hok
  rcases factors_of_drain hd with ⟨hinc, hr⟩ | ⟨who, id, hphase, ⟨hfac⟩⟩
  · left
    rw [hr] at houts
    exact ⟨hinc, houts.symm⟩
  · right
    have huser : (feed P s chunks).2.userId = who.userId := by
      rw [hstate, received_userId hd hphase]
    refine ⟨hfac.auth, hfac.packets, hfac.residual, who, hfac.stream_eq,
      hfac.auth_valid.thirtyFive_le, Nat.le_of_lt_succ hfac.auth_valid.lt_max, hfac.auth_valid,
      hfac.selected, ?_, ?_, huser, ?_⟩
    · intro i hi
      have hv := hfac.packets_valid.getElem i hi
      have hid : (1 : UInt32) + UInt32.ofNat i = UInt32.ofNat (i + 1) := by
        rw [UInt32.ofNat_add, UInt32.add_comm]
        rfl
      rw [hid] at hv
      exact ⟨hv.eight_le, Nat.le_of_lt_succ hv.lt_max, hv⟩
    · exact houts.symm.trans hfac.out_eq
    · intro u hu
      rw [huser, ← hfac.selected] at hu
      rw [← hfac.selected]
      exact (Params.select_userId hu).2

theorem decrypt_sound_client :
    ∃ (auth : List UInt8) (packets : List (List UInt8)) (residual : List UInt8) (who : Identity),
      (ClientCodec.testSession.plain .standard (ClientCodec.testClient.wire .standard
        (ClientCodec.testHello 0) [10, 11] [(.minimal, [12])])).1 =
        auth ++ packets.flatten ++ residual ∧
      [10, 11, 12] = authPayload .standard who.userKey auth ++ packets.flatMap dataPayload := by
  have hfeed := ClientCodec.testSession_fresh.feed_spec [ClientCodec.testClient.wire .standard
    (ClientCodec.testHello 0) [10, 11] [(.minimal, [12])]]
  rw [List.flatten_singleton, ClientCodec.testSession_decoded (by decide) (by decide)] at hfeed
  obtain ⟨outs, houts, hfeed⟩ := hfeed
  rcases decrypt_sound ClientCodec.testSession_fresh (congrArg Prod.fst hfeed) with
    ⟨-, hnil⟩ | ⟨auth, packets, residual, who, hplain, -, -, -, -, -, hout, -, -⟩
  · rw [← houts] at hnil
    cases hnil
  · rw [List.flatten_singleton] at hplain
    exact ⟨auth, packets, residual, who, hplain, houts.trans hout⟩

end ServerSession

end SsrBackend
