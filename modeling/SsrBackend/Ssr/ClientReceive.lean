import SsrBackend.Ssr.SessionRuns

/-!
The receiving side of the tests' client (`client_recv`). It checks no MAC and
trusts the length field and the marker, so it panics where those are wrong; on
packets the server has framed it reads the same payloads as the server's loop.
-/

namespace SsrBackend

open Call Resumable

/-- The receiving state of a client. -/
structure ClientReceiver where
  kind : CipherKind
  masterKey : List UInt8
  recvIvBuf : List UInt8
  decryptor : Option StreamCipher
  recvId : UInt32
  recvBuf : List UInt8

namespace ClientReceiver

/-- One turn of the loop of `client_recv`. `none` is the `break`. -/
def recvTurn : Call CodecError ClientReceiver (Option (List UInt8)) := do
  let c ← get
  let length := leValue [← index c.recvBuf 0, ← index c.recvBuf 1]
  if c.recvBuf.length < length then
    return none
  else
    modify fun c => { c with recvId := c.recvId + 1 }
    let pos := (← index c.recvBuf 4).toNat + 4
    let out ← slice c.recvBuf pos (← checkedSub length 4)
    let rest ← slice c.recvBuf length c.recvBuf.length
    modify fun c => { c with recvBuf := rest }
    return some out

/-- The verdict of a turn. A length or a marker out of range rejects. -/
def recvAttempt (recvId : UInt32) (buf : List UInt8) : Attempt Unit UInt32 UInt8 :=
  let length := packetLength buf
  let pos := leValue (window buf 4 5) + 4
  if buf.length ≤ 4 then .wait
  else if buf.length < length then .wait
  else if length < 4 ∨ length - 4 < pos then .reject ()
  else .accept length (window buf pos (length - 4)) (recvId + 1)

theorem recvAttempt_stable {recvId : UInt32} {buf : List UInt8} (tail : List UInt8)
    (h : recvAttempt recvId buf ≠ .wait) :
    recvAttempt recvId (buf ++ tail) = recvAttempt recvId buf := by
  unfold recvAttempt at h ⊢
  by_cases h4 : buf.length ≤ 4
  · simp [h4] at h
  have hlength : packetLength (buf ++ tail) = packetLength buf := by
    rw [packetLength, packetLength, window_append (by omega)]
  have hlen : (buf ++ tail).length = buf.length + tail.length := List.length_append
  simp only [hlength, window_append (show 5 ≤ buf.length by omega), h4,
    show ¬(buf ++ tail).length ≤ 4 by omega, ite_false] at h ⊢
  by_cases hshort : buf.length < packetLength buf
  · simp [hshort] at h
  simp only [hshort, show ¬(buf ++ tail).length < packetLength buf by omega, ite_false,
    window_append (show packetLength buf - 4 ≤ buf.length by omega)]

theorem recvAttempt_pos {s s' : UInt32} {buf out : List UInt8} {n : Nat}
    (h : recvAttempt s buf = .accept n out s') : 0 < n := by
  simp only [recvAttempt, Attempt.wait_else_eq_accept, Attempt.reject_else_eq_accept,
    Attempt.accept.injEq] at h
  omega

theorem recvAttempt_le {s s' : UInt32} {buf out : List UInt8} {n : Nat}
    (h : recvAttempt s buf = .accept n out s') : n ≤ buf.length := by
  simp only [recvAttempt, Attempt.wait_else_eq_accept, Attempt.reject_else_eq_accept,
    Attempt.accept.injEq] at h
  omega

/-- The packets `client_recv` reads. -/
def reader : Reader UInt8 UInt8 Unit UInt32 where
  attempt := recvAttempt
  used_pos h := recvAttempt_pos h
  used_le h := recvAttempt_le h
  stable tail h := recvAttempt_stable tail h

theorem recvTurn_spec {c : ClientReceiver} (h4 : 4 < c.recvBuf.length) :
    (recvTurn).run c = match recvAttempt c.recvId c.recvBuf with
      | .wait => (.ok none, c)
      | .reject () => (.panic, { c with recvId := c.recvId + 1 })
      | .accept n out next =>
          (.ok (some out), { c with recvId := next, recvBuf := c.recvBuf.drop n }) := by
  have i (k : Nat) (hk : k < 5) : (index c.recvBuf k : Call CodecError ClientReceiver _) =
      pure (c.recvBuf[k]) := index_of_lt (by omega)
  have hlength : leValue [c.recvBuf[0], c.recvBuf[1]] = packetLength c.recvBuf := by
    rw [packetLength, window_cons (by omega) (by omega), window_cons (by omega) (by omega),
      window_self]
  have hpos : (c.recvBuf[4]).toNat = leValue (window c.recvBuf 4 5) := index_eq_leValue h4
  simp only [recvTurn, Call.run_get_bind, i 0 (by omega), i 1 (by omega), i 4 (by omega),
    pure_bind, hlength, hpos, recvAttempt, show ¬ c.recvBuf.length ≤ 4 by omega, ite_false]
  by_cases hshort : c.recvBuf.length < packetLength c.recvBuf
  · simp only [hshort, ite_true, Call.run_pure]
  simp only [hshort, ite_false, Call.run_modify_bind]
  by_cases hbad : packetLength c.recvBuf < 4 ∨
      packetLength c.recvBuf - 4 < leValue (window c.recvBuf 4 5) + 4
  · rw [if_pos hbad]
    rcases Nat.lt_or_ge (packetLength c.recvBuf) 4 with hl | hl
    · have hsub : (checkedSub (packetLength c.recvBuf) 4 : Call CodecError ClientReceiver Nat) =
          MonadPanic.panic := by
        rw [checkedSub, if_neg (by omega)]
      rw [hsub]
      rfl
    · have hpad : packetLength c.recvBuf - 4 < leValue (window c.recvBuf 4 5) + 4 := by omega
      have hslice : (slice c.recvBuf (leValue (window c.recvBuf 4 5) + 4)
          (packetLength c.recvBuf - 4) : Call CodecError ClientReceiver _) =
          MonadPanic.panic := by
        rw [slice, if_neg (by omega)]
      rw [checkedSub_of_le hl, pure_bind, hslice]
      rfl
  · rw [if_neg hbad]
    have hsub : (checkedSub (packetLength c.recvBuf) 4 : Call CodecError ClientReceiver Nat) =
        pure (packetLength c.recvBuf - 4) := checkedSub_of_le (by omega)
    have hout : (slice c.recvBuf (leValue (window c.recvBuf 4 5) + 4)
        (packetLength c.recvBuf - 4) : Call CodecError ClientReceiver _) =
        pure (window c.recvBuf (leValue (window c.recvBuf 4 5) + 4)
          (packetLength c.recvBuf - 4)) := slice_of_le (by omega) (by omega)
    have hrest : (slice c.recvBuf (packetLength c.recvBuf) c.recvBuf.length :
        Call CodecError ClientReceiver _) = pure (c.recvBuf.drop (packetLength c.recvBuf)) := by
      rw [slice_of_le (by omega) (Nat.le_refl _), window, List.take_length]
    rw [hsub, pure_bind, hout, pure_bind, hrest, pure_bind]
    rfl

theorem recvTurn_shrinks {c c' : ClientReceiver} {payload : List UInt8}
    (h4 : 4 < c.recvBuf.length) (h : recvTurn.run c = (.ok (some payload), c')) :
    c'.recvBuf.length < c.recvBuf.length := by
  rw [recvTurn_spec h4] at h
  cases ha : recvAttempt c.recvId c.recvBuf with
  | wait => simp [ha] at h
  | reject e => simp [ha] at h
  | accept n out next =>
      have hpos := reader.used_pos (s := c.recvId) ha
      simp only [ha, Prod.mk.injEq] at h
      rw [← h.2]
      simp only [List.length_drop]
      omega

/-- The `while` loop of `client_recv`. -/
def recvLoop (out : List UInt8) (c : ClientReceiver) :
    Outcome CodecError (List UInt8) × ClientReceiver :=
  if _h4 : 4 < c.recvBuf.length then
    match _h : recvTurn.run c with
    | (.ok (some payload), c') => recvLoop (out ++ payload) c'
    | (.ok none, c') => (.ok out, c')
    | (.err e, c') => (.err e, c')
    | (.panic, c') => (.panic, c')
  else (.ok out, c)
termination_by c.recvBuf.length
decreasing_by exact recvTurn_shrinks _h4 _h

variable (P : Primitives)

/-- The part of `client_recv` behind the IV. -/
def recvBody (cipherBytes : List UInt8) : Call CodecError ClientReceiver (List UInt8) := do
  let decryptor ← expect (← get).decryptor
  modify fun c => { c with
    decryptor := some (decryptor.process P cipherBytes).2
    recvBuf := c.recvBuf ++ (decryptor.process P cipherBytes).1 }
  ⟨recvLoop []⟩

def clientRecv (raw : List UInt8) : Call CodecError ClientReceiver (List UInt8) := do
  match (← get).decryptor with
  | some _ => recvBody P raw
  | none =>
      modify fun c => { c with recvIvBuf := c.recvIvBuf ++ raw }
      let c ← get
      let ivLen := c.kind.ivLen
      if c.recvIvBuf.length < ivLen then
        return []
      else
        let iv ← slice c.recvIvBuf 0 ivLen
        let rest ← slice c.recvIvBuf ivLen c.recvIvBuf.length
        let decryptor ← c.kind.newStream P c.masterKey iv
        modify fun c => { c with decryptor := some decryptor }
        recvBody P rest

def clientRecvAll : ClientReceiver → List (List UInt8) →
    List (Outcome CodecError (List UInt8)) × ClientReceiver
  | c, [] => ([], c)
  | c, raw :: segs =>
      let rest := clientRecvAll ((clientRecv P raw).run c).2 segs
      (((clientRecv P raw).run c).1 :: rest.1, rest.2)

/-- A client that has received nothing. -/
def start (kind : CipherKind) (masterKey : List UInt8) (recvId : UInt32) : ClientReceiver :=
  ⟨kind, masterKey, [], none, recvId, []⟩

variable {P}

theorem recvLoop_spec {c : ClientReceiver} {r : Drained UInt8 UInt8 UInt32}
    (h : reader.drain c.recvId c.recvBuf = .ok r) (out : List UInt8) :
    recvLoop out c = (.ok (out ++ r.1), { c with recvId := r.2.1, recvBuf := r.2.2 }) := by
  generalize hs : c.recvId = recvId, hb : c.recvBuf = buf at h
  induction recvId, buf using Reader.drain.induct reader generalizing c out r with
  | case1 recvId buf ha =>
      subst hs hb
      rw [Reader.drain_wait ha] at h
      cases h
      rw [recvLoop, List.append_nil]
      by_cases h4 : 4 < c.recvBuf.length
      · have hturn := recvTurn_spec h4
        rw [show recvAttempt c.recvId c.recvBuf = .wait from ha] at hturn
        rw [dif_pos h4]
        split <;> simp_all
      · rw [dif_neg h4]
  | case2 recvId buf e ha =>
      rw [Reader.drain_reject ha] at h
      cases h
  | case3 recvId buf n payload next ha ih =>
      subst hs hb
      have ha' : recvAttempt c.recvId c.recvBuf = .accept n payload next := ha
      have h4 : 4 < c.recvBuf.length := by
        simp only [recvAttempt, Attempt.wait_else_eq_accept] at ha'
        omega
      have hturn := recvTurn_spec h4
      rw [ha'] at hturn
      rw [Reader.drain_accept ha] at h
      cases hd : reader.drain next (c.recvBuf.drop n) with
      | error e => simp [hd, Except.map] at h
      | ok r' =>
          simp only [hd, Except.map, Except.ok.injEq] at h
          subst h
          have hrest := ih (c := { c with recvId := next, recvBuf := c.recvBuf.drop n })
            (out ++ payload) rfl rfl hd
          have hloop : recvLoop out c = recvLoop (out ++ payload)
              { c with recvId := next, recvBuf := c.recvBuf.drop n } := by
            rw [recvLoop, dif_pos h4]
            split <;> simp_all
          rw [hloop, hrest]
          simp [Drained.after]

/-- What the wire bytes stand for once the client has their IV. -/
def plain (P : Primitives) (kind : CipherKind) (masterKey wire : List UInt8) :
    List UInt8 × StreamCipher :=
  (kind.stream P masterKey (wire.take kind.ivLen)).process P (wire.drop kind.ivLen)

theorem plain_append {kind : CipherKind} (masterKey : List UInt8) {wire : List UInt8}
    (h : kind.ivLen ≤ wire.length) (raw : List UInt8) :
    plain P kind masterKey (wire ++ raw) =
      ((plain P kind masterKey wire).1 ++ ((plain P kind masterKey wire).2.process P raw).1,
        ((plain P kind masterKey wire).2.process P raw).2) := by
  rw [plain, List.take_append_of_le_length h, List.drop_append_of_le_length h,
    StreamCipher.process_append]
  rfl

theorem plain_of_lt {kind : CipherKind} (masterKey : List UInt8) {wire : List UInt8}
    (h : wire.length < kind.ivLen) : (plain P kind masterKey wire).1 = [] := by
  rw [plain, List.drop_eq_nil_of_le (by omega), StreamCipher.process_nil]

/-- The client has taken in `wire`, which its reader drained to `r`. -/
def Took (P : Primitives) (c : ClientReceiver) (wire : List UInt8)
    (r : Drained UInt8 UInt8 UInt32) : Prop :=
  c.recvId = r.2.1 ∧ c.recvBuf = r.2.2 ∧
    if wire.length < c.kind.ivLen then c.decryptor = none ∧ c.recvIvBuf = wire
    else c.decryptor = some (plain P c.kind c.masterKey wire).2

theorem recvBody_spec {c : ClientReceiver} {decryptor : StreamCipher}
    (hd : c.decryptor = some decryptor) (cipherBytes : List UInt8)
    {r : Drained UInt8 UInt8 UInt32}
    (h : reader.drain c.recvId (c.recvBuf ++ (decryptor.process P cipherBytes).1) = .ok r) :
    (recvBody P cipherBytes).run c = (.ok r.1, { c with
      decryptor := some (decryptor.process P cipherBytes).2, recvId := r.2.1, recvBuf := r.2.2 }) := by
  simp only [recvBody, Call.run_get_bind, hd, expect_some, pure_bind, Call.run_modify_bind]
  exact recvLoop_spec (c := { c with
    decryptor := some (decryptor.process P cipherBytes).2
    recvBuf := c.recvBuf ++ (decryptor.process P cipherBytes).1 }) h []

/-- A call takes the client from `wire` to `wire ++ raw`. -/
theorem clientRecv_took {c : ClientReceiver} (hkey : c.masterKey.length = c.kind.keyLen)
    {wire : List UInt8} {id : UInt32} {r r' : Drained UInt8 UInt8 UInt32} (h : c.Took P wire r)
    (hd : reader.drain id (plain P c.kind c.masterKey wire).1 = .ok r) (raw : List UInt8)
    (hd' : reader.drain id (plain P c.kind c.masterKey (wire ++ raw)).1 = .ok r') :
    ∃ out next, (clientRecv P raw).run c = (.ok out, next) ∧ r'.1 = r.1 ++ out ∧
      next.Took P (wire ++ raw) r' ∧ next.kind = c.kind ∧ next.masterKey = c.masterKey := by
  obtain ⟨hid, hbuf, hopen⟩ := h
  have happ : (wire ++ raw).length = wire.length + raw.length := List.length_append
  by_cases hw : wire.length < c.kind.ivLen
  · rw [if_pos hw] at hopen
    have hr : r = ([], id, []) := by
      rw [plain_of_lt c.masterKey hw, Reader.drain_wait rfl] at hd
      exact (Except.ok.inj hd).symm
    subst hr
    simp only [clientRecv, Call.run_get_bind, hopen.1, Call.run_modify_bind, hopen.2]
    by_cases hshort : (wire ++ raw).length < c.kind.ivLen
    · have hr' : r' = ([], id, []) := by
        rw [plain_of_lt c.masterKey hshort, Reader.drain_wait rfl] at hd'
        exact (Except.ok.inj hd').symm
      subst hr'
      rw [if_pos hshort]
      refine ⟨[], _, rfl, rfl, ⟨hid, hbuf, ?_⟩, rfl, rfl⟩
      rw [if_pos hshort]
      exact ⟨rfl, rfl⟩
    · have hiv : ((wire ++ raw).take c.kind.ivLen).length = c.kind.ivLen := by
        rw [List.length_take]
        omega
      have hslice : (slice (wire ++ raw) 0 c.kind.ivLen : Call CodecError ClientReceiver _) =
          pure ((wire ++ raw).take c.kind.ivLen) := slice_of_le (Nat.zero_le _) (by omega)
      have hrest : (slice (wire ++ raw) c.kind.ivLen (wire ++ raw).length :
          Call CodecError ClientReceiver _) = pure ((wire ++ raw).drop c.kind.ivLen) := by
        rw [slice_of_le (by omega) (Nat.le_refl _), window, List.take_length]
      simp only [if_neg hshort, hslice, hrest, pure_bind, Call.run_modify_bind,
        CipherKind.newStream_of_length P c.kind hkey hiv]
      have hbody := recvBody_spec (P := P) (c := { c with
        recvIvBuf := wire ++ raw
        decryptor := some (c.kind.stream P c.masterKey ((wire ++ raw).take c.kind.ivLen)) })
        rfl ((wire ++ raw).drop c.kind.ivLen) (r := r') (by rw [hid, hbuf]; exact hd')
      refine ⟨_, _, hbody, rfl, ⟨rfl, rfl, ?_⟩, rfl, rfl⟩
      rw [if_neg hshort]
      rfl
  · rw [if_neg hw] at hopen
    have hlong : ¬(wire ++ raw).length < c.kind.ivLen := by omega
    have hplain := plain_append (P := P) c.masterKey (Nat.le_of_not_lt hw) raw
    rw [hplain, Reader.drain_append, hd] at hd'
    change Except.map _ _ = _ at hd'
    cases hmore : reader.drain r.2.1 (r.2.2 ++
        ((plain P c.kind c.masterKey wire).2.process P raw).1) with
    | error e => simp [hmore, Except.map] at hd'
    | ok r'' =>
        simp only [hmore, Except.map, Except.ok.injEq] at hd'
        subst hd'
        have hbody := recvBody_spec (P := P) hopen raw (r := r'') (by rw [hid, hbuf]; exact hmore)
        have hcall : (clientRecv P raw).run c = (recvBody P raw).run c := by
          simp only [clientRecv, Call.run_get_bind, hopen]
        refine ⟨_, _, hcall.trans hbody, rfl, ⟨rfl, rfl, ?_⟩, rfl, rfl⟩
        rw [if_neg hlong, hplain]

/-- A client that can drain the whole wire does so over any segmentation. -/
theorem clientRecvAll_took {c : ClientReceiver} (hkey : c.masterKey.length = c.kind.keyLen)
    {wire : List UInt8} {id : UInt32} {r r' : Drained UInt8 UInt8 UInt32} (h : c.Took P wire r)
    (hd : reader.drain id (plain P c.kind c.masterKey wire).1 = .ok r) (segs : List (List UInt8))
    (hd' : reader.drain id (plain P c.kind c.masterKey (wire ++ segs.flatten)).1 = .ok r') :
    ∃ outs : List (List UInt8), (clientRecvAll P c segs).1 = outs.map .ok ∧
      r'.1 = r.1 ++ outs.flatten := by
  induction segs generalizing c wire r with
  | nil =>
      rw [List.flatten_nil, List.append_nil, hd] at hd'
      cases hd'
      exact ⟨[], rfl, by simp⟩
  | cons raw segs ih =>
      rw [List.flatten_cons, ← List.append_assoc] at hd'
      -- the prefix that this call completes drains, since the whole wire does
      obtain ⟨mid, hmid⟩ : ∃ mid,
          reader.drain id (plain P c.kind c.masterKey (wire ++ raw)).1 = .ok mid := by
        by_cases hshort : (wire ++ raw).length < c.kind.ivLen
        · exact ⟨([], id, []), by rw [plain_of_lt c.masterKey hshort, Reader.drain_wait rfl]⟩
        · rw [plain_append c.masterKey (Nat.le_of_not_lt hshort)] at hd'
          exact Reader.drain_of_append hd'
      obtain ⟨out, next, hcall, hout, htook, hkind, hmaster⟩ :=
        clientRecv_took hkey h hd raw hmid
      rw [← hkind, ← hmaster] at hmid hd' hkey
      obtain ⟨outs, houts, hend⟩ := ih hkey htook hmid hd'
      refine ⟨out :: outs, ?_, ?_⟩
      · simp only [clientRecvAll, hcall, houts, List.map_cons]
      · rw [hend, hout, List.flatten_cons, List.append_assoc]

end ClientReceiver

end SsrBackend
