import SsrBackend.Relay.ConnectionRuns

/-!
What a connection forwards. At every point of the relay the target has got the
bytes that the `decrypt` calls have released behind the address header, and the
header is found at the same place of the client's stream whatever the reads.
The scan of the detect rules sees the chunk that completes the header and no
other: whether the first forwarded bytes were scanned is a matter of the reads.
-/

namespace SsrBackend

open Resumable

variable {P : Primitives}

namespace Connection

/-- The `decrypt` calls on `chunks` succeed and release `data`. -/
def Releases (P : Primitives) (s : ServerSession) (chunks : List (List UInt8))
    (data : List UInt8) : Prop :=
  ∃ outs : List (List UInt8), (ServerSession.feed P s chunks).1 = outs.map .ok ∧ outs.flatten = data

theorem releases_iff {s : ServerSession} (hs : s.Fresh P) (chunks : List (List UInt8))
    (data : List UInt8) :
    Releases P s chunks data ↔ ∃ r, s.decoded P chunks.flatten = .ok r ∧ r.1 = data := by
  constructor
  · rintro ⟨outs, hok, rfl⟩
    obtain ⟨r, hd, hr, -⟩ := hs.decoded_of_ok hok
    exact ⟨r, hd, hr⟩
  · rintro ⟨r, hd, rfl⟩
    have h := hs.feed_spec chunks
    rw [hd] at h
    obtain ⟨outs, hr, hfeed⟩ := h
    exact ⟨outs, by rw [hfeed], hr.symm⟩

/-- The last of the chunks completes the address header: `data` is what all of them
release, and its first `n` bytes are the header. -/
structure Completes (P : Primitives) (s : ServerSession) (chunks : List (List UInt8))
    (data : List UInt8) (target : Address) (n : Nat) : Prop where
  before : ∃ front chunk early, chunks = front ++ [chunk] ∧ Releases P s front early ∧
    parse early = .ok none
  releases : Releases P s chunks data
  header : parse data = .ok (some (target, n))

/-- A connection that was closed before its header was complete, in an error or, with
`Ok`, where the client has closed its side. -/
structure Unserved (P : Primitives) (ctx : StreamContext) (s : ServerSession)
    (events : List StreamEvent) (log : List Action) (result : Outcome StreamError Unit) :
    Prop where
  incomplete : ∀ head data target n, head <+: reads log → ¬ Completes P s head data target n
  unwritten : writes log = []
  uncounted : uploaded log = 0
  eof : result = .ok () → ∃ before world write after h,
    events = before ++ .clientRead [] world write :: after ∧
    Machine.run (step P ctx) (start s) before = ⟨.handshake h, log⟩

/-- A connection that was closed between its header and the first write to the target, in
an error or, with `Ok`, where the device limit has turned the client away. -/
structure Dropped (P : Primitives) (ctx : StreamContext) (s : ServerSession)
    (events : List StreamEvent) (log : List Action) (result : Outcome StreamError Unit) :
    Prop where
  complete : ∃ data target n, Completes P s (reads log) data target n
  unwritten : writes log = []
  counted : uploaded log = min (wire log).length (2 ^ 64 - 1) ∨
    uploaded log = 0 ∧ ∃ userId, result = .err (.noCounter userId)
  refused : result = .ok () → ∃ before chunk world write after h,
    events = before ++ .clientRead chunk world write :: after ∧
    (Machine.run (step P ctx) (start s) before).phase = .handshake h ∧
    Refused ctx world
      (((ServerSession.decrypt P chunk).run h.session).2.userId.getD ctx.fallbackUserId)

/-- What the target of a connection has got, and what was recorded for it. -/
def Faithful (P : Primitives) (ctx : StreamContext) (s : ServerSession)
    (events : List StreamEvent) (c : Connection) : Prop :=
  match c.phase with
  | .handshake _ => writes c.log = [] ∧ uploaded c.log = 0
  | .connecting _ _ target initial => ∃ data n, Completes P s (reads c.log) data target n ∧
      initial = data.drop n ∧ writes c.log = [] ∧
      uploaded c.log = min (wire c.log).length (2 ^ 64 - 1)
  | .relay _ _ => ∃ head tail early data target n, reads c.log = head ++ tail ∧
      Completes P s head early target n ∧ Releases P s (reads c.log) data ∧
      parse data = .ok (some (target, n)) ∧ written c.log = data.drop n ∧
      uploaded c.log = min head.flatten.length (2 ^ 64 - 1) + tail.flatten.length
  | .closed result => Unserved P ctx s events c.log result ∨ Dropped P ctx s events c.log result ∨
      ∃ head tail early data taken target n,
      reads c.log = head ++ tail ∧ Completes P s head early target n ∧ taken <+: wire c.log ∧
      Releases P s [taken] data ∧ parse data = .ok (some (target, n)) ∧
      written c.log <+: data.drop n ∧
      (result = .ok () → taken = wire c.log ∧ written c.log = data.drop n) ∧
      uploaded c.log = min head.flatten.length (2 ^ 64 - 1) + tail.flatten.length

theorem parse_of_accept {buf out : List UInt8} {n : Nat} {target : Address}
    (h : addressAttempt buf = .accept n out target) : parse buf = .ok (some (target, n)) := by
  rw [parse_spec, h]

theorem parse_of_wait {buf : List UInt8} (h : addressAttempt buf = .wait) :
    parse buf = .ok none := by
  rw [parse_spec, h]

section Runs

variable {ctx : StreamContext} {getrandom : GetRandom} {s : ServerSession}
  {events : List StreamEvent} {c : Connection}

theorem handleStream_of_new (hnew : ServerSession.new P ctx.password ctx.tables.authUsers
      ctx.isMultiUser ctx.cipherKind getrandom = .ok s) (events : List StreamEvent) :
    handleStream P ctx getrandom events = .ok (Machine.run (step P ctx) (start s) events) := by
  rw [handleStream, hnew]

theorem good_of_run (hnew : ServerSession.new P ctx.password ctx.tables.authUsers ctx.isMultiUser
      ctx.cipherKind getrandom = .ok s) (hrun : handleStream P ctx getrandom events = .ok c) :
    s.Fresh P ∧ Good P s ctx.enforcement.auditBlock c := by
  have hs := (ServerSession.fresh_of_new hnew).1
  rw [handleStream_of_new hnew] at hrun
  rw [← Outcome.ok.inj hrun]
  exact ⟨hs, good_run hs ctx events⟩

theorem Completed.completes (hs : s.Fresh P) {head : List (List UInt8)} {target : Address}
    {initial : List UInt8} (h : Completed P s head target initial) :
    ∃ data n, Completes P s head data target n ∧ initial = data.drop n := by
  obtain ⟨front, chunk, r, hhead, hfront, hwait⟩ := h.before
  obtain ⟨r', n, hall, ha, hinitial⟩ := h.here
  refine ⟨r'.1, n, ⟨⟨front, chunk, r.1, hhead, ?_, parse_of_wait hwait⟩, ?_, parse_of_accept ha⟩,
    hinitial⟩
  · exact (releases_iff hs _ _).mpr ⟨r, hfront, rfl⟩
  · exact (releases_iff hs _ _).mpr ⟨r', hall, rfl⟩

theorem Relayed.wire_front {auditBlock : Bool} {log front back : List Action} {target : Address}
    {initial : List UInt8} (h : Relayed P s auditBlock log target initial front back) :
    wire front <+: wire log := by
  rw [h.log_eq, wire_append]
  exact List.prefix_append _ _

/-- The reads of a log that has come to the relay, and what was recorded for them. -/
theorem Relayed.split (hs : s.Fresh P) {auditBlock : Bool} {log front back : List Action}
    {target : Address} {initial : List UInt8}
    (h : Relayed P s auditBlock log target initial front back) :
    ∃ early n, reads log = reads front ++ reads back ∧
      Completes P s (reads front) early target n ∧ written log = written back ∧
      uploaded log = min (reads front).flatten.length (2 ^ 64 - 1) +
        (reads back).flatten.length := by
  obtain ⟨early, n, hcompletes, -⟩ := h.opened.completed.completes hs
  refine ⟨early, n, ?_, hcompletes, ?_, ?_⟩
  · rw [h.log_eq, reads_append]
  · rw [h.log_eq, written_append, written.eq_1 front, h.opened.unwritten]
    rfl
  · rw [h.log_eq, uploaded_append, h.opened.counted, h.counted]
    rfl

theorem header_of_prefix (s : ServerSession) {wire tail data data' : List UInt8}
    {target target' : Address} {n n' : Nat} (h : ∃ r, s.decoded P wire = .ok r ∧ r.1 = data)
    (h' : ∃ r, s.decoded P (wire ++ tail) = .ok r ∧ r.1 = data')
    (hparse : parse data = .ok (some (target, n)))
    (hparse' : parse data' = .ok (some (target', n'))) : target = target' ∧ n = n' := by
  obtain ⟨r, hd, rfl⟩ := h
  obtain ⟨r', hd', rfl⟩ := h'
  have hpre := ServerSession.decoded_prefix (P := P) s wire tail
  rw [hd] at hpre
  obtain ⟨out, hout⟩ := hpre r' hd'
  have hsame : parse r'.1 = parse r.1 := by
    rw [hout, parse_spec, parse_spec, addressAttempt_stable]
    intro hwait
    rw [parse_of_wait hwait] at hparse
    cases hparse
  rw [hsame, hparse] at hparse'
  simpa using hparse'

/-- The header has one place in the client's stream, wherever the reads are cut. -/
theorem header_unique (s : ServerSession) {stream wire wire' data data' : List UInt8}
    {target target' : Address} {n n' : Nat} (hpre : wire <+: stream) (hpre' : wire' <+: stream)
    (h : ∃ r, s.decoded P wire = .ok r ∧ r.1 = data)
    (h' : ∃ r, s.decoded P wire' = .ok r ∧ r.1 = data')
    (hparse : parse data = .ok (some (target, n)))
    (hparse' : parse data' = .ok (some (target', n'))) : target = target' ∧ n = n' := by
  rcases List.prefix_or_prefix_of_prefix hpre hpre' with ⟨tail, rfl⟩ | ⟨tail, rfl⟩
  · exact header_of_prefix s h h' hparse hparse'
  · obtain ⟨htarget, hn⟩ := header_of_prefix s h' h hparse' hparse
    exact ⟨htarget.symm, hn.symm⟩

/-- Once complete, the header is at the front of all that the stream releases. -/
theorem Completes.stays (hs : s.Fresh P) {head : List (List UInt8)} {data tail : List UInt8}
    {target : Address} {n : Nat} (h : Completes P s head data target n)
    {r : Drained UInt8 UInt8 Phase} (hd : s.decoded P (head.flatten ++ tail) = .ok r) :
    addressAttempt r.1 = .accept n [] target := by
  obtain ⟨r₀, hd₀, rfl⟩ := (releases_iff hs _ _).mp h.releases
  have hpre := ServerSession.decoded_prefix (P := P) s head.flatten tail
  rw [hd₀] at hpre
  obtain ⟨out, hout⟩ := hpre r hd
  have hheader := h.header
  rw [parse_spec] at hheader
  cases ha : addressAttempt r₀.1 with
  | wait =>
      rw [ha] at hheader
      cases hheader
  | reject e =>
      rw [ha] at hheader
      cases hheader
  | accept m rest other =>
      rw [ha] at hheader
      obtain ⟨-, rfl⟩ := addressAttempt_le ha
      cases hheader
      rw [hout, addressAttempt_stable out (by rw [ha]; rintro ⟨⟩), ha]

/-- No read has completed a header that the reads so far leave incomplete. -/
theorem incomplete_of_wait (hs : s.Fresh P) {chunks : List (List UInt8)}
    {r : Drained UInt8 UInt8 Phase} (hd : s.decoded P chunks.flatten = .ok r)
    (hwait : addressAttempt r.1 = .wait) {head : List (List UInt8)} {data : List UInt8}
    {target : Address} {n : Nat} (hpre : head <+: chunks) : ¬ Completes P s head data target n := by
  intro h
  obtain ⟨tail, rfl⟩ := hpre
  rw [List.flatten_append] at hd
  have hstays := h.stays hs hd
  rw [hwait] at hstays
  cases hstays

theorem faithful_forwarded (hs : s.Fresh P) {auditBlock : Bool} {log : List Action}
    {result : Outcome StreamError Unit} (h : Forwarded P s auditBlock log result) :
    ∃ head tail early data taken target n,
      reads log = head ++ tail ∧ Completes P s head early target n ∧ taken <+: wire log ∧
      Releases P s [taken] data ∧ parse data = .ok (some (target, n)) ∧
      written log <+: data.drop n ∧
      (result = .ok () → taken = wire log ∧ written log = data.drop n) ∧
      uploaded log = min head.flatten.length (2 ^ 64 - 1) + tail.flatten.length := by
  obtain ⟨taken, r, n, target, initial, front, back, htaken, hdec, hrel, ha, hwritten,
    hresult⟩ := h
  obtain ⟨early, n', hreads, hcompletes, hall, hcount⟩ := hrel.split hs
  obtain ⟨-, rfl⟩ := header_unique s hrel.wire_front htaken
    ((releases_iff hs _ _).mp hcompletes.releases) ⟨r, hdec, rfl⟩ hcompletes.header
    (parse_of_accept ha)
  refine ⟨reads front, reads back, early, r.1, taken, target, n', hreads, hcompletes, htaken,
    ?_, parse_of_accept ha, ?_, ?_, hcount⟩
  · apply (releases_iff hs _ _).mpr
    rw [List.flatten_singleton]
    exact ⟨r, hdec, rfl⟩
  · rw [hall]
    exact hwritten
  · rw [hall]
    exact hresult

section Closing

variable {before after : List StreamEvent} {log log' : List Action}
  {result : Outcome StreamError Unit}

/-- A handshake that ends without a read has left its header incomplete. -/
theorem unserved_of_handshake (hs : s.Fresh P) {auditBlock : Bool} {h : Handshake}
    (hinv : Inv P s auditBlock log (.handshake h))
    (heof : result = .ok () → ∃ before world write after h,
      events = before ++ .clientRead [] world write :: after ∧
      Machine.run (step P ctx) (start s) before = ⟨.handshake h, log⟩) :
    Unserved P ctx s events log result := by
  obtain ⟨r, hset, htook, -, hwait, -, hwrites, -, huploaded⟩ := hinv
  have hd := htook.decoded_eq
  rw [ServerSession.decoded_settings hset] at hd
  exact ⟨fun _ _ _ _ hpre => incomplete_of_wait hs hd hwait hpre, hwrites, huploaded, heof⟩

theorem handshakeTurn_closes (hs : s.Fresh P) {h : Handshake} {chunk : List UInt8}
    {world : World} {write : Delivery}
    (hinv : Inv P s ctx.enforcement.auditBlock log (.handshake h)) (hchunk : chunk ≠ [])
    (hevents : events = before ++ .clientRead chunk world write :: after)
    (hbefore : (Machine.run (step P ctx) (start s) before).phase = .handshake h)
    (hclosed : settle ((handshakeTurn P ctx h chunk world).run log) = ⟨.closed result, log'⟩) :
    Unserved P ctx s events log' result ∨ Dropped P ctx s events log' result := by
  obtain ⟨r, hset, htook, hbuf, hwait, hpre, hwrites, -, huploaded⟩ := hinv
  obtain ⟨o, acts, hadds, hreads, hquiet, hend⟩ :=
    handshakeTurn_adds ctx htook hbuf hwait hchunk world
  have hd := htook.decoded_eq
  rw [ServerSession.decoded_settings hset] at hd
  have hwire : wire (log ++ acts) = wire log ++ chunk := by
    rw [wire_append, wire.eq_1 acts, hreads, List.flatten_singleton]
  have hall : reads (log ++ acts) = reads log ++ [chunk] := by rw [reads_append, hreads]
  have hnone : writes (log ++ acts) = [] := by rw [writes_append, hwrites, hquiet]; rfl
  have hcount : uploaded (log ++ acts) = uploaded acts := by
    rw [uploaded_append, huploaded, Nat.zero_add]
  rw [hadds log] at hclosed
  rcases hend with ⟨hfails, hzero, hheader⟩ | ⟨r', htook', hcase⟩
  · left
    obtain ⟨result', hresult, hsettle⟩ := settle_fails hfails (log ++ acts)
    cases hsettle.symm.trans hclosed
    refine ⟨?_, hnone, hcount.trans hzero, fun hok => absurd hok hresult⟩
    intro head data target n hprefix hcompletes
    rw [hall] at hprefix
    rcases List.prefix_concat_iff.mp hprefix with rfl | hearlier
    · obtain ⟨r', hd', rfl⟩ := (releases_iff hs _ _).mp hcompletes.releases
      rw [← List.append_nil (reads log ++ [chunk]).flatten] at hd'
      have hstays := hcompletes.stays hs hd'
      rw [List.append_nil, ← ServerSession.decoded_settings hset, List.flatten_append,
        List.flatten_singleton] at hd'
      exact hheader r' hd' _ _ _ hstays
    · exact incomplete_of_wait hs hd hwait hearlier hcompletes
  · rcases hcase with ⟨-, -, -, rfl⟩ | ⟨n, target, ha, hdrops | ⟨served, rfl, -⟩⟩
    · cases hclosed
    · right
      have hnext := htook'.decoded_eq
      rw [ServerSession.decoded_settings
        ((ServerSession.decrypt_settings (P := P) htook.masterKey_length chunk).trans hset)] at hnext
      have hlen : saturatingAdd h.preAuthUpload chunk.length =
          min (wire (log ++ acts)).length (2 ^ 64 - 1) := by
        rw [hpre, saturatingAdd_min, hwire, List.length_append]
      obtain ⟨rfl, hok, herr⟩ := settle_closed hclosed
      refine ⟨⟨r'.1, target, n, ⟨reads log, chunk, r.1, hall, ?_, parse_of_wait hwait⟩, ?_,
        parse_of_accept ha⟩, hnone, ?_, ?_⟩
      · exact (releases_iff hs _ _).mpr ⟨r, hd, rfl⟩
      · refine (releases_iff hs _ _).mpr ⟨r', ?_, rfl⟩
        rw [hall, List.flatten_append, List.flatten_singleton]
        exact hnext
      · rw [hcount, ← hlen]
        rcases hdrops.counted with hfull | ⟨hzero, hnocounter⟩
        · exact Or.inl hfull
        · exact Or.inr ⟨hzero, _, herr _ hnocounter⟩
      · intro hresult
        rcases hdrops.result with hfails | ⟨-, hrefused⟩
        · exact absurd (hok hresult) (hfails _)
        · exact ⟨before, chunk, world, write, after, h, hevents, hbefore, hrefused⟩
    · cases hclosed

/-- How a connection comes to its end. -/
theorem closed_cases (hs : s.Fresh P) (ctx : StreamContext) (events : List StreamEvent)
    (hclosed : Machine.run (step P ctx) (start s) events = ⟨.closed result, log⟩) :
    Unserved P ctx s events log result ∨ Dropped P ctx s events log result ∨
      Forwarded P s ctx.enforcement.auditBlock log result := by
  have hstay : ∀ (c : Connection) (event : StreamEvent), (∃ result, c.phase = .closed result) →
      step P ctx c event = c := by
    rintro ⟨phase, log⟩ event ⟨result, rfl⟩
    cases event <;> rfl
  have hstart : ¬ ∃ result, (start s).phase = .closed result := by
    rintro ⟨result, hphase⟩
    cases hphase
  have hend : ∃ result, (Machine.run (step P ctx) (start s) events).phase = .closed result :=
    ⟨result, by rw [hclosed]⟩
  obtain ⟨before, event, after, hevents, hopen, hlast⟩ := Machine.run_enters hstay hstart hend
  have hgood := good_run hs ctx before
  rw [hclosed] at hlast
  generalize hstate : Machine.run (step P ctx) (start s) before = c at hgood hopen hlast
  obtain ⟨phase, log₀⟩ := c
  cases phase with
  | closed result => exact absurd ⟨result, rfl⟩ hopen
  | handshake h =>
      have hbail (e : StreamError) (heq : (⟨.closed result, log⟩ : Connection) =
          settle (.err e, log₀)) : Unserved P ctx s events log result := by
        cases heq
        exact unserved_of_handshake hs hgood (by rintro ⟨⟩)
      cases event with
      | clientRead chunk world write =>
          by_cases hchunk : chunk = []
          · subst hchunk
            cases hlast
            exact Or.inl (unserved_of_handshake hs hgood
              fun _ => ⟨before, world, write, after, h, hevents, hstate⟩)
          · rcases handshakeTurn_closes hs hgood hchunk hevents (by rw [hstate]) hlast.symm with
              hunserved | hdropped
            · exact Or.inl hunserved
            · exact Or.inr (Or.inl hdropped)
      | clientFailed reason => exact Or.inl (hbail _ hlast)
      | idle => exact Or.inl (hbail _ hlast)
      | connected net failure => cases hlast
      | remoteRead chunk write => cases hlast
      | remoteFailed reason => cases hlast
  | connecting session served target initial =>
      cases event with
      | connected net failure =>
          rcases inv_connectTurn hgood net failure with hrelay | ⟨result', acts, hresult, hclosed',
            hreads, hwrites, huploaded⟩
          · have hrelay' : Relaying P s ctx.enforcement.auditBlock ⟨.closed result, log⟩ := by
              rw [hlast]
              exact hrelay
            exact Or.inr (Or.inr hrelay')
          · obtain ⟨-, -, hopened⟩ := hgood
            obtain ⟨data, n, hcompletes, -⟩ := hopened.completed.completes hs
            cases hlast.trans hclosed'
            refine Or.inr (Or.inl ⟨⟨data, target, n, ?_⟩, ?_, Or.inl ?_,
              fun hok => absurd hok hresult⟩)
            · rw [reads_append, hreads, List.append_nil]
              exact hcompletes
            · rw [writes_append, hopened.unwritten, hwrites]
              rfl
            · rw [uploaded_append, huploaded, hopened.counted, wire_append, wire.eq_1 acts, hreads,
                List.flatten_nil, List.append_nil]
              rfl
      | clientRead chunk world write => cases hlast
      | clientFailed reason => cases hlast
      | remoteRead chunk write => cases hlast
      | remoteFailed reason => cases hlast
      | idle => cases hlast
  | relay session served =>
      have hrelay : Relaying P s ctx.enforcement.auditBlock ⟨.closed result, log⟩ := by
        rw [hlast]
        exact relaying_step hgood event
      exact Or.inr (Or.inr hrelay)

end Closing

theorem faithful_run (hs : s.Fresh P) (ctx : StreamContext) (events : List StreamEvent) :
    Faithful P ctx s events (Machine.run (step P ctx) (start s) events) := by
  have h := good_run hs ctx events
  generalize hstate : Machine.run (step P ctx) (start s) events = c at *
  obtain ⟨phase, log⟩ := c
  cases phase with
  | handshake hs =>
      obtain ⟨r, -, -, -, -, -, hwrites, -, huploaded⟩ := h
      exact ⟨hwrites, huploaded⟩
  | connecting session served target initial =>
      obtain ⟨-, -, hopened⟩ := h
      obtain ⟨data, n, hcompletes, hinitial⟩ := hopened.completed.completes hs
      exact ⟨data, n, hcompletes, hinitial, hopened.unwritten, hopened.counted⟩
  | relay session served =>
      obtain ⟨hset, r, n, target, initial, front, back, htook, hrel, -, ha, hwritten⟩ := h
      obtain ⟨early, n', hreads, hcompletes, hall, hcount⟩ := hrel.split hs
      have hdec := htook.decoded_eq
      rw [ServerSession.decoded_settings hset] at hdec
      obtain ⟨-, rfl⟩ := header_unique s hrel.wire_front List.prefix_rfl
        ((releases_iff hs _ _).mp hcompletes.releases) ⟨r, hdec, rfl⟩ hcompletes.header
        (parse_of_accept ha)
      refine ⟨reads front, reads back, early, r.1, target, n', hreads, hcompletes, ?_,
        parse_of_accept ha, hall.trans hwritten, hcount⟩
      exact (releases_iff hs _ _).mpr ⟨r, hdec, rfl⟩
  | closed result =>
      rcases closed_cases hs ctx events hstate with hunserved | hdropped | hforwarded
      · exact Or.inl hunserved
      · exact Or.inr (Or.inl hdropped)
      · exact Or.inr (Or.inr (faithful_forwarded hs hforwarded))

theorem faithful_of_run (hnew : ServerSession.new P ctx.password ctx.tables.authUsers
      ctx.isMultiUser ctx.cipherKind getrandom = .ok s)
    (hrun : handleStream P ctx getrandom events = .ok c) :
    s.Fresh P ∧ Faithful P ctx s events c := by
  have hs := (ServerSession.fresh_of_new hnew).1
  rw [handleStream_of_new hnew] at hrun
  rw [← Outcome.ok.inj hrun]
  exact ⟨hs, faithful_run hs ctx events⟩

end Runs

/-- The target gets the released bytes behind the header, in every run, and two
runs on one client stream agree on the header. -/
theorem relay_fidelity {ctx : StreamContext} {getrandom : GetRandom} {s : ServerSession}
    {events : List StreamEvent} {c : Connection}
    (hnew : ServerSession.new P ctx.password ctx.tables.authUsers ctx.isMultiUser
      ctx.cipherKind getrandom = .ok s)
    (hrun : handleStream P ctx getrandom events = .ok c) :
    Faithful P ctx s events c ∧
    ∀ (getrandom' : GetRandom) (events' : List StreamEvent) (c' : Connection)
      (stream : List UInt8) (session session' : ServerSession) (served served' : Served)
      (target target' : Address) (initial initial' : List UInt8),
      handleStream P ctx getrandom' events' = .ok c' →
      wire c.log <+: stream → wire c'.log <+: stream →
      c.phase = .connecting session served target initial →
      c'.phase = .connecting session' served' target' initial' → target = target' := by
  obtain ⟨hs, hfaithful⟩ := faithful_of_run hnew hrun
  refine ⟨hfaithful, ?_⟩
  intro getrandom' events' c' stream session session' served served' target target' initial
    initial' hrun' hpre hpre' hphase hphase'
  have hnew' : ∃ s', ServerSession.new P ctx.password ctx.tables.authUsers ctx.isMultiUser
      ctx.cipherKind getrandom' = .ok s' := by
    unfold handleStream at hrun'
    split at hrun'
    · exact ⟨_, ‹_›⟩
    · cases hrun'
    · cases hrun'
  obtain ⟨s', hnew'⟩ := hnew'
  obtain ⟨hs', hfaithful'⟩ := faithful_of_run hnew' hrun'
  have hset : s'.settings = s.settings := by
    obtain ⟨-, hcipher, hkey, husers, hmulti⟩ := ServerSession.fresh_of_new hnew
    obtain ⟨-, hcipher', hkey', husers', hmulti'⟩ := ServerSession.fresh_of_new hnew'
    simp only [ServerSession.settings, hcipher, hkey, husers, hmulti, hcipher', hkey', husers',
      hmulti']
  simp only [Faithful, hphase] at hfaithful
  simp only [Faithful, hphase'] at hfaithful'
  obtain ⟨data, n, hcompletes, -⟩ := hfaithful
  obtain ⟨data', n', hcompletes', -⟩ := hfaithful'
  have hdec' := (releases_iff hs' _ _).mp hcompletes'.releases
  rw [ServerSession.decoded_settings hset] at hdec'
  exact (header_unique s hpre hpre' ((releases_iff hs _ _).mp hcompletes.releases) hdec'
    hcompletes.header hcompletes'.header).1

/-- The first chunk written to the target that is not empty was scanned before, and
no rule of that scan matches it. -/
def FirstScanned (log : List Action) : Prop :=
  ∀ front data sent back, log = front ++ .writeRemote data sent :: back → data ≠ [] →
    (∀ w ∈ writes front, w.1 = []) → ∃ rules, .scan rules data ∈ front ∧ Cleared rules data

/-- The read that completes the address header brings payload with it. -/
def PayloadWithHeader (P : Primitives) (s : ServerSession) (chunks : List (List UInt8)) : Prop :=
  ∃ head data target n, head <+: chunks ∧ Completes P s head data target n ∧ n < data.length

section Scanned

variable {s : ServerSession}

theorem releases_unique (hs : s.Fresh P) {chunks : List (List UInt8)} {data data' : List UInt8}
    (h : Releases P s chunks data) (h' : Releases P s chunks data') : data = data' := by
  obtain ⟨r, hd, rfl⟩ := (releases_iff hs _ _).mp h
  obtain ⟨r', hd', rfl⟩ := (releases_iff hs _ _).mp h'
  rw [hd] at hd'
  exact congrArg Prod.fst (Except.ok.inj hd')

/-- The header is not complete before the read that completes it. -/
theorem Completes.not_earlier (hs : s.Fresh P) {front : List (List UInt8)} {chunk : List UInt8}
    {data data' : List UInt8} {target target' : Address} {n n' : Nat}
    (h : Completes P s (front ++ [chunk]) data target n) {head : List (List UInt8)}
    (h' : Completes P s head data' target' n') : ¬ head <+: front := by
  rintro ⟨tail, hfront⟩
  obtain ⟨front', chunk', early, hsplit, hearly, hnone⟩ := h.before
  have heq : front = front' := (List.append_inj' hsplit rfl).1
  subst heq
  obtain ⟨r, hd, rfl⟩ := (releases_iff hs _ _).mp hearly
  rw [← hfront, List.flatten_append] at hd
  rw [parse_of_accept (h'.stays hs hd)] at hnone
  cases hnone

theorem Completes.exists_last {head : List (List UInt8)} {data : List UInt8} {target : Address}
    {n : Nat} (h : Completes P s head data target n) : ∃ front chunk, head = front ++ [chunk] := by
  obtain ⟨front, chunk, -, hhead, -⟩ := h.before
  exact ⟨front, chunk, hhead⟩

/-- One read of a connection completes the header. -/
theorem completes_unique (hs : s.Fresh P) {chunks head head' : List (List UInt8)}
    {data data' : List UInt8} {target target' : Address} {n n' : Nat} (hpre : head <+: chunks)
    (hpre' : head' <+: chunks) (h : Completes P s head data target n)
    (h' : Completes P s head' data' target' n') : head = head' := by
  obtain ⟨front, chunk, rfl⟩ := h.exists_last
  obtain ⟨front', chunk', rfl⟩ := h'.exists_last
  rcases List.prefix_or_prefix_of_prefix hpre hpre' with hle | hle
  · rcases List.prefix_concat_iff.mp hle with heq | hlt
    · exact heq
    · exact absurd hlt (h'.not_earlier hs h)
  · rcases List.prefix_concat_iff.mp hle with heq | hlt
    · exact heq.symm
    · exact absurd hlt (h.not_earlier hs h')

theorem payloadWithHeader_iff (hs : s.Fresh P) {chunks head : List (List UInt8)} {data : List UInt8}
    {target : Address} {n : Nat} (hpre : head <+: chunks) (h : Completes P s head data target n) :
    PayloadWithHeader P s chunks ↔ n < data.length := by
  constructor
  · rintro ⟨head', data', target', n', hpre', h', hlt⟩
    have heq := completes_unique hs hpre hpre' h h'
    subst heq
    have hdata := releases_unique hs h.releases h'.releases
    subst hdata
    have hheader := h'.header
    rw [h.header] at hheader
    simp only [Outcome.ok.injEq, Option.some.injEq, Prod.mk.injEq] at hheader
    rw [hheader.2]
    exact hlt
  · intro hlt
    exact ⟨head, data, target, n, hpre, h, hlt⟩

theorem writes_split {log front back : List Action} {data : List UInt8} {sent : Nat}
    (h : log = front ++ .writeRemote data sent :: back) :
    writes log = writes front ++ (data, sent) :: writes back := by
  rw [h, writes_append]
  rfl

theorem split_of_writes {log : List Action} {data : List UInt8} {sent : Nat}
    {rest : List (List UInt8 × Nat)} (h : writes log = (data, sent) :: rest) :
    ∃ front back, log = front ++ .writeRemote data sent :: back ∧ writes front = [] := by
  obtain ⟨front, action, back, hlog, hnone, hsome, -⟩ := List.filterMap_eq_cons_iff.mp h
  have haction : action = .writeRemote data sent := by
    cases action with
    | writeRemote data' sent' => simpa [Action.written?] using hsome
    | _ => cases hsome
  rw [haction] at hlog
  exact ⟨front, back, hlog, List.filterMap_eq_nil_iff.mpr hnone⟩

theorem mem_scans {log : List Action} {rules : RuleSet} {data : List UInt8} :
    (rules, data) ∈ scans log ↔ .scan rules data ∈ log := by
  constructor
  · intro h
    obtain ⟨action, hmem, hsome⟩ := List.mem_filterMap.mp h
    cases action with
    | scan rules' data' =>
        simp only [Action.scanned?, Option.some.injEq, Prod.mk.injEq] at hsome
        rw [← hsome.1, ← hsome.2]
        exact hmem
    | _ => cases hsome
  · intro h
    exact List.mem_filterMap.mpr ⟨_, h, rfl⟩

/-- The handshake's part of a log lies before the first write. -/
theorem front_of_write {log handshake relay front back : List Action} {data : List UInt8}
    {sent : Nat} (hlog : log = handshake ++ relay) (hquiet : writes handshake = [])
    (hsplit : log = front ++ .writeRemote data sent :: back) : handshake <+: front := by
  have hpre : handshake <+: log := ⟨relay, hlog.symm⟩
  have hpre' : front <+: log := ⟨_, hsplit.symm⟩
  rcases List.prefix_or_prefix_of_prefix hpre hpre' with h | ⟨tail, htail⟩
  · exact h
  · rw [hlog, ← htail, List.append_assoc, List.append_cancel_left_eq] at hsplit
    cases tail with
    | nil =>
        simp only [← htail, List.append_nil, List.prefix_rfl]
    | cons action tail =>
        rw [List.cons_append, List.cons.injEq] at hsplit
        rw [← htail, writes_append, hsplit.1] at hquiet
        exact absurd (List.append_eq_nil_iff.mp hquiet).2 (List.cons_ne_nil _ _)

theorem Relayed.writes_eq {auditBlock : Bool} {log front back : List Action} {target : Address}
    {initial : List UInt8} (h : Relayed P s auditBlock log target initial front back) :
    writes log = writes back := by
  rw [h.log_eq, writes_append, h.opened.unwritten, List.nil_append]

/-- A scanned first write is the payload that came with the header: nothing else is scanned. -/
theorem Relayed.initial_of_firstScanned {log front back : List Action} {target : Address}
    {initial : List UInt8} (h : Relayed P s true log target initial front back)
    (hfirst : FirstScanned log) : initial ≠ [] ∨ ∀ w ∈ writes log, w.1 = [] := by
  obtain ⟨rules, hscans, -⟩ := h.opened.scanned
  have hscanned : scans log = [(rules, initial)] := by
    rw [h.log_eq, scans_append, hscans, h.unscanned, List.append_nil]
  rcases h.first with hnone | ⟨data, sent, rest, hback, hne, -⟩
  · right
    rw [h.writes_eq, hnone]
    nofun
  · left
    obtain ⟨before, after, hsplit, hquiet⟩ := split_of_writes (h.writes_eq.trans hback)
    obtain ⟨rules', hmem, -⟩ := hfirst before data sent after hsplit hne (by rw [hquiet]; nofun)
    have hlog : Action.scan rules' data ∈ log := by
      rw [hsplit]
      exact List.mem_append_left _ hmem
    rw [← mem_scans, hscanned, List.mem_singleton, Prod.mk.injEq] at hlog
    rw [← hlog.2]
    exact hne

/-- With a payload in the header the first bytes written are that payload. -/
theorem Relayed.first_data {auditBlock : Bool} {log front back : List Action} {target : Address}
    {initial : List UInt8} (h : Relayed P s auditBlock log target initial front back)
    (hinit : initial ≠ []) {before after : List Action} {data : List UInt8} {sent : Nat}
    (hsplit : log = before ++ .writeRemote data sent :: after)
    (hquiet : ∀ w ∈ writes before, w.1 = []) : data = initial := by
  have hmem : (data, sent) ∈ writes log := by
    rw [writes_split hsplit]
    exact List.mem_append_right _ List.mem_cons_self
  rcases h.first with hnone | ⟨data', sent', rest, hback, -, hfirst⟩
  · rw [h.writes_eq, hnone] at hmem
    cases hmem
  · have hall := (h.writes_eq.trans hback).symm.trans (writes_split hsplit)
    rw [hfirst hinit] at hall
    cases hw : writes before with
    | nil =>
        rw [hw, List.nil_append, List.cons.injEq, Prod.mk.injEq] at hall
        exact hall.1.1.symm
    | cons w ws =>
        rw [hw, List.cons_append, List.cons.injEq] at hall
        have hempty := hquiet w (by rw [hw]; exact List.mem_cons_self)
        rw [← hall.1] at hempty
        exact absurd hempty hinit

theorem Relayed.firstScanned {log front back : List Action} {target : Address}
    {initial : List UInt8} (h : Relayed P s true log target initial front back)
    (hinit : initial ≠ []) : FirstScanned log := by
  intro before data sent after hsplit _ hquiet
  obtain ⟨rules, hscans, hclear⟩ := h.opened.scanned
  have hdata := h.first_data hinit hsplit hquiet
  obtain ⟨more, rfl⟩ := front_of_write h.log_eq h.opened.unwritten hsplit
  refine ⟨rules, ?_, ?_⟩
  · apply List.mem_append_left
    rw [← mem_scans, hscans, hdata]
    exact List.mem_singleton_self _
  · rw [hdata]
    exact hclear rfl hinit

/-- In the relay the first write was scanned exactly when it came with the header. -/
theorem firstScanned_relayed (hs : s.Fresh P) {log front back : List Action} {target : Address}
    {initial : List UInt8} (h : Relayed P s true log target initial front back) :
    FirstScanned log ↔ PayloadWithHeader P s (reads log) ∨ ∀ w ∈ writes log, w.1 = [] := by
  obtain ⟨early, n, hcompletes, hinitial⟩ := h.opened.completed.completes hs
  have hpre : reads front <+: reads log := by
    rw [h.log_eq, reads_append]
    exact List.prefix_append _ _
  have hpayload : PayloadWithHeader P s (reads log) ↔ initial ≠ [] := by
    rw [payloadWithHeader_iff hs hpre hcompletes, hinitial, Ne, List.drop_eq_nil_iff]
    omega
  rw [hpayload]
  refine ⟨h.initial_of_firstScanned, ?_⟩
  intro hcase
  cases hcase with
  | inl hinit => exact h.firstScanned hinit
  | inr hnone =>
      intro before data sent after hsplit hne _
      have hmem : (data, sent) ∈ writes log := by
        rw [writes_split hsplit]
        exact List.mem_append_right _ List.mem_cons_self
      exact absurd (hnone _ hmem) hne

theorem firstScanned_unwritten {log : List Action} (h : writes log = []) :
    FirstScanned log ∧ ∀ w ∈ writes log, w.1 = [] := by
  refine ⟨?_, ?_⟩
  · intro front data sent back hsplit
    rw [writes_split hsplit] at h
    exact absurd (List.append_eq_nil_iff.mp h).2 (List.cons_ne_nil _ _)
  · rw [h]
    nofun

theorem firstScanned_of_good (hs : s.Fresh P) {c : Connection} (h : Good P s true c) :
    FirstScanned c.log ↔ PayloadWithHeader P s (reads c.log) ∨ ∀ w ∈ writes c.log, w.1 = [] := by
  have hquiet (hnone : writes c.log = []) : FirstScanned c.log ↔
      PayloadWithHeader P s (reads c.log) ∨ ∀ w ∈ writes c.log, w.1 = [] := by
    obtain ⟨hfirst, hall⟩ := firstScanned_unwritten hnone
    exact ⟨fun _ => Or.inr hall, fun _ => hfirst⟩
  obtain ⟨phase, log⟩ := c
  cases phase with
  | handshake hs =>
      obtain ⟨-, -, -, -, -, -, hnone, -⟩ := h
      exact hquiet hnone
  | connecting session served target initial =>
      obtain ⟨-, -, hopened⟩ := h
      exact hquiet hopened.unwritten
  | relay session served =>
      obtain ⟨_, _, _, _, _, _, _, _, hrel, _⟩ := h
      exact firstScanned_relayed hs hrel
  | closed result =>
      rcases h with hnone | ⟨_, _, _, _, _, _, _, _, _, hrel, _⟩
      · exact hquiet hnone
      · exact firstScanned_relayed hs hrel

end Scanned

/-- With blocking on, the first forwarded chunk was scanned and cleared exactly in
the runs whose header came with payload, or that have forwarded nothing. -/
theorem first_write_scanned_iff {ctx : StreamContext} {getrandom : GetRandom} {s : ServerSession}
    {events : List StreamEvent} {c : Connection} (hblock : ctx.enforcement.auditBlock = true)
    (hnew : ServerSession.new P ctx.password ctx.tables.authUsers ctx.isMultiUser
      ctx.cipherKind getrandom = .ok s)
    (hrun : handleStream P ctx getrandom events = .ok c) :
    FirstScanned c.log ↔ PayloadWithHeader P s (reads c.log) ∨ ∀ w ∈ writes c.log, w.1 = [] := by
  obtain ⟨hs, hgood⟩ := good_of_run hnew hrun
  rw [hblock] at hgood
  exact firstScanned_of_good hs hgood

section Sample

/-- An ordinary port with one counter and blocking on. -/
def sampleContext : StreamContext where
  password := "carrier"
  fallbackUserId := 1
  tables := ⟨∅, (∅ : Std.HashMap Nat Handle).insert 1 0, ∅, ∅, ∅⟩
  enforcement := ⟨false, false, true, false⟩
  isMultiUser := 0
  cipherKind := .rc4Md5
  peerIp := "192.0.2.1"
  peer := "192.0.2.1:4000"

def sampleKey : List UInt8 := deriveMasterKey .standard "carrier" .rc4Md5

def sampleRandom : GetRandom := fun n => .ok (Vector.replicate n 0)

def sampleSession : ServerSession :=
  .start .standard .rc4Md5 sampleKey ∅ 0 (List.replicate 16 0)

def sampleClient : ClientCodec :=
  .new .standard .rc4Md5 sampleKey sampleKey (List.replicate 16 0x42)

/-- A client's stream to `sampleSession`. -/
def sampleWire (first : List UInt8) (more : List (Padding × List UInt8)) : List UInt8 :=
  sampleClient.wire .standard (ClientCodec.testHello 0) first more

/-- The header of 127.0.0.1:80. -/
def sampleHeader : List UInt8 := [1, 127, 0, 0, 1, 0, 80]

theorem sample_new : ServerSession.new .standard sampleContext.password
    sampleContext.tables.authUsers sampleContext.isMultiUser sampleContext.cipherKind
    sampleRandom = .ok sampleSession := by
  rw [ServerSession.new_spec]
  rfl

theorem sample_decoded {first : List UInt8} {more : List (Padding × List UInt8)}
    (hfirst : 35 + first.length < maxPacket)
    (hmore : ∀ u ∈ more, 8 + u.1.bytes.length + u.2.length < maxPacket) :
    ∃ r, sampleSession.decoded .standard (sampleWire first more) = .ok r ∧
      r.1 = first ++ more.flatMap (fun u => u.2) := by
  have hsel : (Params.mk sampleSession.masterKey (List.replicate 16 0x42) sampleSession.users
      sampleSession.isMultiUser).select ⟨sampleSession.masterKey, none⟩
      (ClientCodec.testHello 0).uid.toNat = ⟨sampleKey, none⟩ := by
    simp [Params.select, sampleSession, ServerSession.start]
  have h := ClientCodec.decoded_wire sampleSession (ClientCodec.testHello 0) sampleKey
    (List.replicate 16 0x42) first more Primitives.standard_aesInverts rfl
    (congrArg Identity.userKey hsel) (by simpa [ClientCodec.testHello] using hfirst) hmore
  exact ⟨_, h, rfl⟩

/-- The packet that a client sends behind its header. -/
def sampleBody : List UInt8 :=
  ClientCodec.clientSendAll .standard
    (sampleClient.clientFirstSend .standard (ClientCodec.testHello 0) sampleHeader).2
    [(.minimal, [1])]

/-- One rule, which matches everything. -/
def sampleWorld : World := ⟨fun _ => ∅, [⟨1, fun _ => true⟩]⟩

/-- The header alone, the connect, and the first payload. -/
def sampleEvents : List StreamEvent :=
  [.clientRead (sampleWire sampleHeader []) sampleWorld .done,
    .connected ⟨.ok [], .ok (), fun _ => .ok ()⟩ none,
    .clientRead sampleBody sampleWorld .done]

theorem sampleWire_body :
    sampleWire sampleHeader [(.minimal, [1])] = sampleWire sampleHeader [] ++ sampleBody := by
  simp [sampleWire, sampleBody, ClientCodec.wire, ClientCodec.clientSendAll]

theorem sample_header : ∃ r, sampleSession.decoded .standard (sampleWire sampleHeader []) = .ok r ∧
    r.1 = sampleHeader := sample_decoded (by decide) nofun

theorem sample_body : ∃ r, sampleSession.decoded .standard
    (sampleWire sampleHeader [] ++ sampleBody) = .ok r ∧ r.1 = sampleHeader ++ [1] := by
  rw [← sampleWire_body]
  exact sample_decoded (by decide) (by decide)

theorem sampleWire_ne_nil : sampleWire sampleHeader [] ≠ [] := by
  intro hnil
  obtain ⟨r, hd, hr⟩ := sample_header
  rw [hnil, ServerSession.decoded_nil] at hd
  rw [← Except.ok.inj hd] at hr
  cases hr

theorem sampleBody_ne_nil : sampleBody ≠ [] := by
  intro hnil
  obtain ⟨r, hd, hr⟩ := sample_header
  obtain ⟨r', hd', hr'⟩ := sample_body
  rw [hnil, List.append_nil, hd] at hd'
  rw [← Except.ok.inj hd', hr] at hr'
  cases hr'

theorem sampleContext_counters :
    sampleContext.tables.countersByUser[sampleContext.fallbackUserId]? = some 0 := by
  simp [sampleContext]

theorem sampleHeader_accept :
    ∃ target, addressAttempt sampleHeader = .accept sampleHeader.length [] target := ⟨_, rfl⟩

/-- The header alone opens the connection, and the payload behind it is relayed. -/
theorem sample_run :
    ∃ c session served, handleStream .standard sampleContext sampleRandom sampleEvents = .ok c ∧
      c.phase = .relay session served ∧
      reads c.log = [sampleWire sampleHeader [], sampleBody] := by
  have hs := (ServerSession.fresh_of_new sample_new).1
  obtain ⟨r, hd, hr⟩ := sample_header
  obtain ⟨r', hd', hr'⟩ := sample_body
  obtain ⟨target, ha⟩ := sampleHeader_accept
  rw [← hr] at ha
  have hfirst : sampleSession.decoded .standard (wire [] ++ sampleWire sampleHeader []) = .ok r := by
    rw [wire_nil, List.nil_append]
    exact hd
  have hstart : Inv .standard sampleSession true [] (.handshake ⟨sampleSession, [], 0⟩) :=
    good_start hs true
  obtain ⟨session, served, log, hopen, hpolicy, hreads⟩ := step_opens hstart rfl
    sampleContext_counters rfl sampleWire_ne_nil hfirst ha sampleWorld .done
  obtain ⟨log', hconnect, hreads'⟩ := step_connects .standard sampleContext session log hpolicy
    target (show (⟨.ok [], .ok (), fun _ => .ok ()⟩ : Network).connectHost = .ok () from rfl) none
  have hgood : Good .standard sampleSession true ⟨.relay session served, log'⟩ := by
    rw [← hconnect, ← hopen]
    exact good_step (good_step (good_start hs _) _) _
  have hwire : wire log' = sampleWire sampleHeader [] := by
    rw [wire, hreads', hreads, reads_nil, List.nil_append, List.flatten_singleton]
  rw [← hwire] at hd'
  obtain ⟨session', log'', hrelay, hreads''⟩ := step_relays sampleContext hgood sampleBody_ne_nil
    hd' sampleWorld
  refine ⟨⟨.relay session' served, log''⟩, session', served, ?_, rfl, ?_⟩
  · rw [handleStream_of_new sample_new, sampleEvents, Machine.run_cons, Machine.run_cons,
      Machine.run_cons, start, hopen, hconnect, hrelay, Machine.run_nil]
  · rw [hreads'', hreads', hreads, reads_nil]
    rfl

/-- Both runs of the sample: the target has got the payload behind the header. -/
theorem relay_fidelity_sample :
    ∃ c, handleStream .standard sampleContext sampleRandom sampleEvents = .ok c ∧
      Faithful .standard sampleContext sampleSession sampleEvents c := by
  obtain ⟨c, -, -, hrun, -⟩ := sample_run
  exact ⟨c, hrun, (relay_fidelity sample_new hrun).1⟩

theorem sampleHeader_completes (target : Address)
    (ha : addressAttempt sampleHeader = .accept sampleHeader.length [] target) :
    Completes .standard sampleSession [sampleWire sampleHeader []] sampleHeader target
      sampleHeader.length := by
  have hs := (ServerSession.fresh_of_new sample_new).1
  refine ⟨⟨[], _, [], rfl, ⟨[], rfl, rfl⟩, rfl⟩, ?_, parse_of_accept ha⟩
  apply (releases_iff hs _ _).mpr
  rw [List.flatten_singleton]
  exact sample_header

/-- A header that comes alone: the payload behind it matches a rule and is forwarded
without a scan. -/
theorem header_alone_unscanned :
    ∃ c, handleStream .standard sampleContext sampleRandom sampleEvents = .ok c ∧
      (∃ rule ∈ sampleWorld.rules, rule.isMatch [1] = true) ∧ written c.log = [1] ∧
      ¬ FirstScanned c.log := by
  obtain ⟨c, session, served, hrun, hphase, hreads⟩ := sample_run
  obtain ⟨hs, hgood⟩ := good_of_run sample_new hrun
  obtain ⟨target, ha⟩ := sampleHeader_accept
  have hfaithful := (faithful_of_run sample_new hrun).2
  simp only [Faithful, hphase] at hfaithful
  obtain ⟨-, -, -, data, target', n, -, -, hdata, hparse, hwritten, -⟩ := hfaithful
  have hbody : Releases .standard sampleSession (reads c.log) (sampleHeader ++ [1]) := by
    apply (releases_iff hs _ _).mpr
    rw [hreads]
    simpa using sample_body
  have heq := releases_unique hs hdata hbody
  rw [heq, parse_spec, addressAttempt_stable _ (by rw [ha]; nofun), ha] at hparse
  simp only [Outcome.ok.injEq, Option.some.injEq, Prod.mk.injEq] at hparse
  have hone : written c.log = [1] := by
    rw [hwritten, heq, ← hparse.2, List.drop_left]
  refine ⟨c, hrun, ⟨_, List.mem_singleton_self _, rfl⟩, hone, ?_⟩
  rw [firstScanned_of_good hs hgood]
  rintro (hpayload | hnone)
  · have hpre : [sampleWire sampleHeader []] <+: reads c.log := by
      rw [hreads]
      exact ⟨[sampleBody], rfl⟩
    rw [payloadWithHeader_iff hs hpre (sampleHeader_completes target ha)] at hpayload
    exact absurd hpayload (Nat.lt_irrefl _)
  · have hnothing : written c.log = [] := by
      apply List.flatMap_eq_nil_iff.mpr
      intro w hw
      rw [hnone w hw, List.take_nil]
    rw [hnothing] at hone
    cases hone

theorem first_write_scanned_iff_sample :
    ∃ c, handleStream .standard sampleContext sampleRandom sampleEvents = .ok c ∧
      (FirstScanned c.log ↔ PayloadWithHeader .standard sampleSession (reads c.log) ∨
        ∀ w ∈ writes c.log, w.1 = []) := by
  obtain ⟨c, -, -, hrun, -⟩ := sample_run
  exact ⟨c, hrun, first_write_scanned_iff rfl sample_new hrun⟩

theorem sampleWire_append (first : List UInt8) (more last : List (Padding × List UInt8)) :
    ∃ tail, sampleWire first (more ++ last) = sampleWire first more ++ tail := by
  obtain ⟨c', h⟩ := ClientCodec.clientSendAll_append .standard
    (sampleClient.clientFirstSend .standard (ClientCodec.testHello 0) first).2 more last
  refine ⟨c'.clientSendAll .standard last, ?_⟩
  rw [sampleWire, sampleWire, ClientCodec.wire, ClientCodec.wire, h, List.append_assoc]

/-- Empty packets that a client sends before its header. -/
def idlePackets (n : Nat) : List (Padding × List UInt8) := List.replicate n (.minimal, [])

theorem idlePackets_short (n : Nat) :
    ∀ u ∈ idlePackets n, 8 + u.1.bytes.length + u.2.length < maxPacket := by
  intro u hu
  rw [List.eq_of_mem_replicate hu]
  decide

theorem idlePackets_payload (n : Nat) : (idlePackets n).flatMap (fun u => u.2) = [] := by
  apply List.flatMap_eq_nil_iff.mpr
  intro u hu
  rw [List.eq_of_mem_replicate hu]

theorem idle_decoded (n : Nat) :
    ∃ r, sampleSession.decoded .standard (sampleWire [] (idlePackets n)) = .ok r ∧ r.1 = [] := by
  obtain ⟨r, hd, hr⟩ := sample_decoded (show 35 + ([] : List UInt8).length < maxPacket by decide)
    (idlePackets_short n)
  refine ⟨r, hd, ?_⟩
  rw [hr, idlePackets_payload]
  rfl

theorem idle_header_decoded (n : Nat) :
    ∃ r, sampleSession.decoded .standard
        (sampleWire [] (idlePackets n ++ [(.minimal, sampleHeader)])) = .ok r ∧
      r.1 = sampleHeader := by
  have hshort : ∀ u ∈ idlePackets n ++ [(.minimal, sampleHeader)],
      8 + u.1.bytes.length + u.2.length < maxPacket := by
    intro u hu
    cases List.mem_append.mp hu with
    | inl hidle => exact idlePackets_short n u hidle
    | inr hlast =>
        rw [List.mem_singleton.mp hlast]
        decide
  obtain ⟨r, hd, hr⟩ := sample_decoded (show 35 + ([] : List UInt8).length < maxPacket by decide)
    hshort
  refine ⟨r, hd, ?_⟩
  rw [hr, List.flatMap_append, idlePackets_payload]
  rfl

theorem le_length_idle (n : Nat) : 8 * n ≤ (sampleWire [] (idlePackets n)).length := by
  have h := ClientCodec.le_length_clientSendAll .standard (sampleClient.clientFirstSend .standard
    (ClientCodec.testHello 0) []).2 (idlePackets n)
  rw [idlePackets, List.length_replicate] at h
  rw [sampleWire, ClientCodec.wire, List.length_append]
  exact Nat.le_trans h (Nat.le_add_left _ _)

/-- A stream without application bytes, read byte by byte, leaves the handshake waiting. -/
theorem bytewise_waits {stream : List UInt8} {r : Drained UInt8 UInt8 Phase}
    (hd : sampleSession.decoded .standard stream = .ok r) (hnil : r.1 = []) :
    ∃ h log, Machine.run (step .standard sampleContext) (start sampleSession)
        ((stream.map fun b => [b]).map fun chunk => .clientRead chunk sampleWorld .done) =
          ⟨.handshake h, log⟩ ∧
      wire log = stream ∧ h.appBuf = [] := by
  have hs := (ServerSession.fresh_of_new sample_new).1
  have hchunks : (stream.map fun b => [b]).flatten = stream := by
    rw [← List.flatMap_def, List.flatMap_singleton']
  have hsingle : ∀ chunk ∈ stream.map fun b => [b], chunk ≠ [] := by
    intro chunk hchunk
    obtain ⟨b, -, rfl⟩ := List.mem_map.mp hchunk
    exact List.cons_ne_nil b []
  have hstart : Inv .standard sampleSession sampleContext.enforcement.auditBlock []
      (.handshake ⟨sampleSession, [], 0⟩) := good_start hs true
  have hall : sampleSession.decoded .standard (wire [] ++ (stream.map fun b => [b]).flatten) =
      .ok r := by
    rw [hchunks]
    exact hd
  obtain ⟨h, log, hrun, hreads⟩ := run_waits hstart hsingle hall hnil sampleWorld
  have hwire : wire log = stream := by
    rw [wire, hreads]
    exact hchunks
  have hgood : Good .standard sampleSession true ⟨.handshake h, log⟩ := by
    rw [← hrun]
    exact good_run hs sampleContext _
  refine ⟨h, log, hrun, hwire, ?_⟩
  obtain ⟨r', hset, htook, happ, -⟩ := hgood
  have hd' := htook.decoded_eq
  rw [ServerSession.decoded_settings hset, hwire, hd] at hd'
  rw [happ, ← Except.ok.inj hd', hnil]

/-- A client that sends `n` empty packets before its header, read byte by byte. -/
theorem sample_idle (n : Nat) :
    ∃ events c session served target, handleStream .standard sampleContext sampleRandom events =
      .ok c ∧ c.phase = .connecting session served target [] ∧ 8 * n ≤ (wire c.log).length := by
  have hs := (ServerSession.fresh_of_new sample_new).1
  obtain ⟨r, hd, hnil⟩ := idle_decoded n
  obtain ⟨r', hd', hheader⟩ := idle_header_decoded n
  obtain ⟨tail, htail⟩ := sampleWire_append [] (idlePackets n) [(.minimal, sampleHeader)]
  have hlength := le_length_idle n
  generalize sampleWire [] (idlePackets n) = stream at *
  rw [htail] at hd'
  have htail_ne : tail ≠ [] := by
    intro hempty
    rw [hempty, List.append_nil, hd] at hd'
    rw [← Except.ok.inj hd', hnil] at hheader
    cases hheader
  obtain ⟨h, log, hrun, hwire, hbuf⟩ := bytewise_waits hd hnil
  have hgood : Good .standard sampleSession true ⟨.handshake h, log⟩ := by
    rw [← hrun]
    exact good_run hs sampleContext _
  obtain ⟨target, ha⟩ := sampleHeader_accept
  rw [← hheader] at ha
  rw [← hwire] at hd'
  obtain ⟨session, served, log', hopen, -, hreads'⟩ := step_opens hgood hbuf
    sampleContext_counters rfl htail_ne hd' ha sampleWorld .done
  refine ⟨((stream.map fun b => [b]).map fun chunk => .clientRead chunk sampleWorld .done) ++
    [.clientRead tail sampleWorld .done], ⟨.connecting session served target [], log'⟩, session,
    served, target, ?_, rfl, ?_⟩
  · rw [handleStream_of_new sample_new, Machine.run_append, hrun, Machine.run_cons, hopen,
      Machine.run_nil]
  · change 8 * n ≤ (wire log').length
    rw [wire, hreads', List.flatten_append, List.length_append]
    change 8 * n ≤ (wire log).length + _
    rw [hwire]
    omega

/-- The handshake's upload is capped: a stream of more than `u64::MAX` bytes before
the header is recorded short. -/
theorem long_handshake_uncounted :
    ∃ events c session served target initial,
      handleStream .standard sampleContext sampleRandom events = .ok c ∧
      c.phase = .connecting session served target initial ∧
      uploaded c.log ≠ (wire c.log).length := by
  obtain ⟨events, c, session, served, target, hrun, hphase, hlength⟩ := sample_idle (2 ^ 61)
  have hfaithful := (faithful_of_run sample_new hrun).2
  simp only [Faithful, hphase] at hfaithful
  obtain ⟨-, -, -, -, -, hcount⟩ := hfaithful
  refine ⟨events, c, session, served, target, [], hrun, hphase, ?_⟩
  rw [hcount]
  omega

end Sample

end Connection

end SsrBackend
