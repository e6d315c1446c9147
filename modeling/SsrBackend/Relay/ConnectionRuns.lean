import SsrBackend.Relay.ConnectionLog

/-!
Runs of a connection. The invariant ties the log to the wire: while the handshake
goes on nothing has been written, and from then on the bytes written to the
target are what the wire read so far decodes to behind the address header. It also
keeps the one scan of the connection and the first write beside each other.
-/

namespace SsrBackend

open Resumable

variable {P : Primitives}

namespace Connection

/-- The last of the chunks `head` completes the address header. -/
structure Completed (P : Primitives) (s : ServerSession) (head : List (List UInt8))
    (target : Address) (initial : List UInt8) : Prop where
  before : ∃ front chunk r, head = front ++ [chunk] ∧ s.decoded P front.flatten = .ok r ∧
    addressAttempt r.1 = .wait
  here : ∃ r n, s.decoded P head.flatten = .ok r ∧ addressAttempt r.1 = .accept n [] target ∧
    initial = r.1.drop n

/-- The log of a connection that has just completed its handshake. -/
structure Opened (P : Primitives) (s : ServerSession) (auditBlock : Bool) (log : List Action)
    (target : Address) (initial : List UInt8) : Prop where
  completed : Completed P s (reads log) target initial
  unwritten : writes log = []
  counted : uploaded log = min (wire log).length (2 ^ 64 - 1)
  scanned : ∃ rules, scans log = [(rules, initial)] ∧
    (auditBlock = true → initial ≠ [] → Cleared rules initial)

/-- The log after the connect: `front` is the handshake and `back` the relay. -/
structure Relayed (P : Primitives) (s : ServerSession) (auditBlock : Bool) (log : List Action)
    (target : Address) (initial : List UInt8) (front back : List Action) : Prop where
  log_eq : log = front ++ back
  opened : Opened P s auditBlock front target initial
  unscanned : scans back = []
  counted : uploaded back = (wire back).length
  first : writes back = [] ∨ ∃ data sent rest, writes back = (data, sent) :: rest ∧
    data ≠ [] ∧ (initial ≠ [] → data = initial)

/-- What a relay leaves behind that has ended with `result`. -/
def Forwarded (P : Primitives) (s : ServerSession) (auditBlock : Bool) (log : List Action)
    (result : Outcome StreamError Unit) : Prop :=
  ∃ taken r n target initial front back, taken <+: wire log ∧ s.decoded P taken = .ok r ∧
    Relayed P s auditBlock log target initial front back ∧
    addressAttempt r.1 = .accept n [] target ∧ written back <+: r.1.drop n ∧
    (result = .ok () → taken = wire log ∧ written back = r.1.drop n)

/-- What holds in every phase of a connection that was made with the session `s`. -/
def Inv (P : Primitives) (s : ServerSession) (auditBlock : Bool) (log : List Action) :
    StreamPhase → Prop
  | .handshake h => ∃ r, h.session.settings = s.settings ∧ h.session.Took P (wire log) r ∧
      h.appBuf = r.1 ∧ addressAttempt r.1 = .wait ∧
      h.preAuthUpload = min (wire log).length (2 ^ 64 - 1) ∧
      writes log = [] ∧ scans log = [] ∧ uploaded log = 0
  | .connecting session _ target initial => session.settings = s.settings ∧
      (∃ r, session.Took P (wire log) r) ∧ Opened P s auditBlock log target initial
  | .relay session _ => session.settings = s.settings ∧
      ∃ r n target initial front back, session.Took P (wire log) r ∧
        Relayed P s auditBlock log target initial front back ∧
        (initial = [] ∨ writes back ≠ []) ∧ addressAttempt r.1 = .accept n [] target ∧
        written back = r.1.drop n
  | .closed result => writes log = [] ∨ Forwarded P s auditBlock log result

/-- The invariant of a connection. -/
def Good (P : Primitives) (s : ServerSession) (auditBlock : Bool) (c : Connection) : Prop :=
  Inv P s auditBlock c.log c.phase

/-- The invariant of a connection that has come to the relay. -/
def Relaying (P : Primitives) (s : ServerSession) (auditBlock : Bool) (c : Connection) : Prop :=
  match c.phase with
  | .closed result => Forwarded P s auditBlock c.log result
  | phase => Inv P s auditBlock c.log phase

theorem Relaying.good {s : ServerSession} {auditBlock : Bool} {c : Connection}
    (h : Relaying P s auditBlock c) : Good P s auditBlock c := by
  obtain ⟨phase, log⟩ := c
  cases phase with
  | closed result => exact Or.inr h
  | handshake _ => exact h
  | connecting _ _ _ _ => exact h
  | relay _ _ => exact h

theorem settle_ends {o : Outcome StreamError StreamPhase} (h : Ends o) (log : List Action) :
    ∃ result, settle (o, log) = ⟨.closed result, log⟩ := by
  cases o with
  | err e => exact ⟨.err e, rfl⟩
  | panic => exact ⟨.panic, rfl⟩
  | ok phase =>
      cases phase with
      | closed result => exact ⟨result, rfl⟩
      | handshake _ => exact h.elim
      | connecting _ _ _ _ => exact h.elim
      | relay _ _ => exact h.elim

theorem settle_fails {o : Outcome StreamError StreamPhase} (h : Fails o) (log : List Action) :
    ∃ result, result ≠ .ok () ∧ settle (o, log) = ⟨.closed result, log⟩ := by
  cases o with
  | ok phase => exact absurd rfl (h phase)
  | err e => exact ⟨.err e, nofun, rfl⟩
  | panic => exact ⟨.panic, nofun, rfl⟩

theorem settle_closed {o : Outcome StreamError StreamPhase} {log log' : List Action}
    {result : Outcome StreamError Unit} (h : settle (o, log) = ⟨.closed result, log'⟩) :
    log' = log ∧ (result = .ok () → o = .ok (.closed (.ok ()))) ∧
      ∀ e, o = .err e → result = .err e := by
  cases o with
  | ok phase =>
      cases h
      refine ⟨rfl, ?_, ?_⟩
      · rintro rfl
        rfl
      · rintro e ⟨⟩
  | err e =>
      cases h
      refine ⟨rfl, ?_, ?_⟩
      · rintro ⟨⟩
      · rintro e' ⟨⟩
        rfl
  | panic =>
      cases h
      refine ⟨rfl, ?_, ?_⟩
      · rintro ⟨⟩
      · rintro e ⟨⟩

theorem saturatingAdd_min (a b : Nat) :
    saturatingAdd (min a (2 ^ 64 - 1)) b = min (a + b) (2 ^ 64 - 1) := by
  unfold saturatingAdd
  omega

/-- What the relay appends to the log: no scan, and at most one write. -/
theorem Relayed.append {s : ServerSession} {auditBlock : Bool} {log front back acts : List Action}
    {target : Address} {initial : List UInt8}
    (h : Relayed P s auditBlock log target initial front back) (hscans : scans acts = [])
    (hcount : uploaded acts = (wire acts).length) (hkept : initial = [] ∨ writes back ≠ [])
    (hwrite : writes acts = [] ∨ ∃ data sent, writes acts = [(data, sent)] ∧ data ≠ []) :
    Relayed P s auditBlock (log ++ acts) target initial front (back ++ acts) := by
  refine ⟨?_, h.opened, ?_, ?_, ?_⟩
  · rw [h.log_eq, List.append_assoc]
  · rw [scans_append, h.unscanned, hscans]
    rfl
  · rw [uploaded_append, h.counted, hcount, wire_append, List.length_append]
  · rw [writes_append]
    rcases h.first with hnone | ⟨data, sent, rest, hback, hne, hfirst⟩
    · rw [hnone, List.nil_append]
      have hempty : initial = [] := hkept.resolve_right (fun h => h hnone)
      rcases hwrite with hnothing | ⟨data, sent, hone, hne⟩
      · exact Or.inl hnothing
      · exact Or.inr ⟨data, sent, [], hone, hne, fun h => absurd hempty h⟩
    · refine Or.inr ⟨data, sent, rest ++ writes acts, ?_, hne, hfirst⟩
      rw [hback, List.cons_append]

section Steps

variable {s : ServerSession} {auditBlock : Bool} {ctx : StreamContext} {log : List Action}

theorem good_ok {phase : StreamPhase} (h : Inv P s auditBlock log phase) :
    Good P s auditBlock (settle (.ok phase, log)) := h

/-- A closed connection that has written nothing. -/
theorem inv_unwritten {o : Outcome StreamError StreamPhase} (h : Ends o)
    (hnone : writes log = []) : Good P s auditBlock (settle (o, log)) := by
  obtain ⟨result, hclosed⟩ := settle_ends h log
  rw [hclosed]
  exact Or.inl hnone

theorem inv_handshakeTurn {h : Handshake}
    (hinv : Inv P s ctx.enforcement.auditBlock log (.handshake h)) (chunk : List UInt8)
    (world : World) :
    Good P s ctx.enforcement.auditBlock (settle ((handshakeTurn P ctx h chunk world).run log)) := by
  obtain ⟨r, hset, htook, hbuf, hwait, hpre, hwrites, hscans, huploaded⟩ := hinv
  by_cases hchunk : chunk = []
  · rw [handshakeTurn, if_pos hchunk]
    exact Or.inl hwrites
  · obtain ⟨o, acts, hadds, hreads, hquiet, hend⟩ :=
      handshakeTurn_adds ctx htook hbuf hwait hchunk world
    have hwire : wire (log ++ acts) = wire log ++ chunk := by
      rw [wire_append, wire.eq_1 acts, hreads, List.flatten_singleton]
    have hnone : writes (log ++ acts) = [] := by rw [writes_append, hwrites, hquiet]; rfl
    have hnext := (ServerSession.decrypt_settings (P := P) htook.masterKey_length chunk).trans hset
    rw [hadds log]
    rcases hend with ⟨hfails, -⟩ | ⟨r', htook', hcase⟩
    · exact inv_unwritten hfails.ends hnone
    · rw [← hwire] at htook'
      have hlen : saturatingAdd h.preAuthUpload chunk.length =
          min (wire (log ++ acts)).length (2 ^ 64 - 1) := by
        rw [hpre, saturatingAdd_min, hwire, List.length_append]
      rcases hcase with ⟨hwait', hscan', hup', rfl⟩ | ⟨n, target, ha, hdrops | ⟨served, rfl, hup',
        hscan', hclear⟩⟩
      · apply good_ok
        refine ⟨r', hnext, htook', rfl, hwait', hlen, hnone, ?_, ?_⟩
        · rw [scans_append, hscans, hscan']
          rfl
        · rw [uploaded_append, huploaded, hup']
      · exact inv_unwritten hdrops.ends hnone
      · apply good_ok
        refine ⟨hnext, ⟨r', htook'⟩, ⟨?_, ?_⟩, hnone, ?_, world.rules, ?_, hclear⟩
        · refine ⟨reads log, chunk, r, ?_, ?_, hwait⟩
          · rw [reads_append, hreads]
          · rw [← ServerSession.decoded_settings hset]
            exact htook.decoded_eq
        · refine ⟨r', n, ?_, ha, rfl⟩
          rw [← ServerSession.decoded_settings hnext]
          exact htook'.decoded_eq
        · rw [uploaded_append, huploaded, hup', Nat.zero_add, hlen]
        · rw [scans_append, hscans, hscan']
          rfl

theorem inv_connectTurn {session : ServerSession} {served : Served} {target : Address}
    {initial : List UInt8} (hinv : Inv P s auditBlock log (.connecting session served target initial))
    (net : Network) (failure : Option (Nat × String)) :
    Relaying P s auditBlock
        (settle ((connectTurn ctx session served target initial net failure).run log)) ∨
      ∃ result acts, result ≠ .ok () ∧
        settle ((connectTurn ctx session served target initial net failure).run log) =
          ⟨.closed result, log ++ acts⟩ ∧
        reads acts = [] ∧ writes acts = [] ∧ uploaded acts = 0 := by
  obtain ⟨hset, ⟨r, htook⟩, hopened⟩ := hinv
  obtain ⟨o, acts, hadds, hreads, hscans, huploaded, hend⟩ :=
    connectTurn_adds ctx session served target initial net failure
  have hwire : wire acts = [] := by rw [wire, hreads]; rfl
  have hlog : wire (log ++ acts) = wire log := by rw [wire_append, hwire, List.append_nil]
  obtain ⟨r₀, n, hdec, ha, hinitial⟩ := hopened.completed.here
  have hr : r₀ = r := by
    have h := htook.decoded_eq
    rw [ServerSession.decoded_settings hset] at h
    exact Except.ok.inj (hdec.symm.trans h)
  subst hr
  have hrelayed (hfirst : writes acts = [] ∨ ∃ data sent rest, writes acts = (data, sent) :: rest ∧
      data ≠ [] ∧ (initial ≠ [] → data = initial)) :
      Relayed P s auditBlock (log ++ acts) target initial log acts :=
    ⟨rfl, hopened, hscans, by rw [huploaded, hwire]; rfl, hfirst⟩
  rw [hadds log]
  rcases hend with ⟨rfl, hcase⟩ | ⟨hend, hcase⟩
  · refine Or.inl ?_
    change Inv P s auditBlock (log ++ acts) (.relay session served)
    refine ⟨hset, r₀, n, target, initial, log, acts, by rw [hlog]; exact htook, ?_⟩
    rcases hcase with ⟨hempty, hnone⟩ | ⟨hne, hone⟩
    · refine ⟨hrelayed (Or.inl hnone), Or.inl hempty, ha, ?_⟩
      rw [written, hnone, ← hinitial, hempty]
      rfl
    · refine ⟨hrelayed (Or.inr ⟨_, _, _, hone, hne, fun _ => rfl⟩), Or.inr ?_, ha, ?_⟩
      · rw [hone]
        simp
      · rw [written, hone, ← hinitial]
        simp
  · rcases hcase with hnone | ⟨hne, sent, hone⟩
    · obtain ⟨result, hresult, hclosed⟩ := settle_fails hend (log ++ acts)
      exact Or.inr ⟨result, acts, hresult, hclosed, hreads, hnone, huploaded⟩
    · obtain ⟨result, hresult, hclosed⟩ := settle_fails hend (log ++ acts)
      rw [hclosed]
      refine Or.inl ⟨wire log, r₀, n, target, initial, log, acts, ?_, hdec, ?_, ha, ?_,
        fun h => absurd h hresult⟩
      · simp only [hlog, List.prefix_rfl]
      · exact hrelayed (Or.inr ⟨_, _, _, hone, hne, fun _ => rfl⟩)
      · rw [written, hone, ← hinitial]
        simpa using List.take_prefix sent initial

/-- A relay that ends: the chunk that has ended it was not written. -/
theorem inv_relayEnds {session : ServerSession} {served : Served} {acts : List Action}
    {o : Outcome StreamError StreamPhase}
    (hinv : Inv P s auditBlock log (.relay session served)) (hend : Ends o)
    (hscans : scans acts = []) (hcount : uploaded acts = (wire acts).length)
    (hnone : writes acts = []) (hread : Fails o ∨ wire acts = []) :
    Relaying P s auditBlock (settle (o, log ++ acts)) := by
  obtain ⟨hset, r, n, target, initial, front, back, htook, hrel, hkept, ha, hwritten⟩ := hinv
  have hall : written (back ++ acts) = r.1.drop n := by
    rw [written_append, written.eq_1 acts, hnone, hwritten]
    exact List.append_nil _
  have hend' : ∃ result, settle (o, log ++ acts) = ⟨.closed result, log ++ acts⟩ ∧
      (result = .ok () → wire acts = []) := by
    rcases hread with hfails | hquiet
    · obtain ⟨result, hresult, hclosed⟩ := settle_fails hfails (log ++ acts)
      exact ⟨result, hclosed, fun h => absurd h hresult⟩
    · obtain ⟨result, hclosed⟩ := settle_ends hend (log ++ acts)
      exact ⟨result, hclosed, fun _ => hquiet⟩
  obtain ⟨result, hclosed, hresult⟩ := hend'
  rw [hclosed]
  refine ⟨wire log, r, n, target, initial, front, back ++ acts, ?_, ?_, ?_, ha, ?_, ?_⟩
  · rw [wire_append]
    exact List.prefix_append _ _
  · rw [← ServerSession.decoded_settings hset]
    exact htook.decoded_eq
  · exact hrel.append hscans hcount hkept (Or.inl hnone)
  · simp only [hall, List.prefix_rfl]
  · intro hok
    rw [wire_append, hresult hok, List.append_nil]
    exact ⟨rfl, hall⟩

theorem inv_clientTurn {session : ServerSession} {served : Served}
    (hinv : Inv P s auditBlock log (.relay session served)) (chunk : List UInt8)
    (write : Delivery) :
    Relaying P s auditBlock (settle ((clientTurn P session served chunk write).run log)) := by
  by_cases hchunk : chunk = []
  · rw [clientTurn, if_pos hchunk, ← List.append_nil log]
    exact inv_relayEnds hinv trivial rfl rfl rfl (Or.inr rfl)
  · have hrelay := hinv
    obtain ⟨hset, r, n, target, initial, front, back, htook, hrel, hkept, ha, hwritten⟩ := hinv
    obtain ⟨o, acts, hadds, hreads, hscans, huploaded, hcase⟩ :=
      clientTurn_adds htook served hchunk write
    have hwire : wire acts = chunk := by rw [wire, hreads, List.flatten_singleton]
    have hcount : uploaded acts = (wire acts).length := by rw [huploaded, hwire]
    have hlog : wire (log ++ acts) = wire log ++ chunk := by rw [wire_append, hwire]
    rw [hadds log]
    rcases hcase with ⟨hend, hnone⟩ | ⟨r', out, hout, hdec, hcase⟩
    · exact inv_relayEnds hrelay hend.ends hscans hcount hnone (Or.inl hend)
    · have hmore : addressAttempt r'.1 = .accept n [] target := by
        rw [hout, addressAttempt_stable out (by rw [ha]; rintro ⟨⟩), ha]
      have hdrop : r'.1.drop n = r.1.drop n ++ out := by
        rw [hout, List.drop_append_of_le_length (addressAttempt_le ha).1]
      rcases hcase with ⟨hend, hne, sent, hone⟩ | ⟨rfl, htook', hwrites⟩
      · obtain ⟨result, hresult, hclosed⟩ := settle_fails hend (log ++ acts)
        rw [hclosed]
        refine ⟨wire log ++ chunk, r', n, target, initial, front, back ++ acts, ?_, ?_, ?_,
          hmore, ?_, fun h => absurd h hresult⟩
        · simp only [hlog, List.prefix_rfl]
        · rw [← ServerSession.decoded_settings hset]
          exact hdec
        · exact hrel.append hscans hcount hkept (Or.inr ⟨out, sent, hone, hne⟩)
        · rw [written_append, written.eq_1 acts, hone, hwritten, hdrop, List.prefix_append_right_inj]
          simpa using List.take_prefix sent out
      · have hwrite : writes acts = [] ∨ ∃ data sent, writes acts = [(data, sent)] ∧ data ≠ [] := by
          rcases hwrites with ⟨-, hnone⟩ | ⟨hne, hone⟩
          · exact Or.inl hnone
          · exact Or.inr ⟨out, out.length, hone, hne⟩
        have hall : written acts = out := by
          rcases hwrites with ⟨hempty, hnone⟩ | ⟨-, hone⟩
          · rw [written, hnone, hempty]
            rfl
          · rw [written, hone]
            simp
        change Inv P s auditBlock (log ++ acts) (.relay _ served)
        refine ⟨?_, r', n, target, initial, front, back ++ acts, ?_, ?_, ?_, hmore, ?_⟩
        · exact (ServerSession.decrypt_settings htook.masterKey_length chunk).trans hset
        · rw [hlog]
          exact htook'
        · exact hrel.append hscans hcount hkept hwrite
        · rcases hkept with hempty | hback
          · exact Or.inl hempty
          · right
            rw [writes_append]
            simp [hback]
        · rw [written_append, hwritten, hall, hdrop]

theorem inv_remoteTurn {session : ServerSession} {served : Served}
    (hinv : Inv P s auditBlock log (.relay session served)) (chunk : List UInt8)
    (write : Delivery) :
    Relaying P s auditBlock (settle ((remoteTurn P session served chunk write).run log)) := by
  have hrelay := hinv
  obtain ⟨hset, r, n, target, initial, front, back, htook, hrel, hkept, ha, hwritten⟩ := hinv
  obtain ⟨o, acts, hadds, hsilent, hcase⟩ := remoteTurn_adds htook served chunk write
  have hwire : wire acts = [] := by rw [wire, hsilent.reads_eq]; rfl
  have hcount : uploaded acts = (wire acts).length := by rw [hsilent.uploaded_eq, hwire]; rfl
  rw [hadds log]
  rcases hcase with hend | ⟨next, rfl, hnext, htook'⟩
  · exact inv_relayEnds hrelay hend hsilent.scans_eq hcount hsilent.writes_eq (Or.inr hwire)
  · change Inv P s auditBlock (log ++ acts) (.relay next served)
    refine ⟨hnext.trans hset, r, n, target, initial, front, back ++ acts, ?_, ?_, ?_, ha, ?_⟩
    · rw [wire_append, hwire, List.append_nil]
      exact htook'
    · exact hrel.append hsilent.scans_eq hcount hkept (Or.inl hsilent.writes_eq)
    · rw [writes_append, hsilent.writes_eq, List.append_nil]
      exact hkept
    · rw [written_append, written.eq_1 acts, hsilent.writes_eq, hwritten]
      exact List.append_nil _

/-- Every step of the relay keeps what the relay has written. -/
theorem relaying_step {session : ServerSession} {served : Served}
    (hinv : Inv P s ctx.enforcement.auditBlock log (.relay session served))
    (event : StreamEvent) :
    Relaying P s ctx.enforcement.auditBlock (step P ctx ⟨.relay session served, log⟩ event) := by
  have hbail (e : StreamError) : Relaying P s ctx.enforcement.auditBlock
      (settle (.err e, log)) := by
    rw [← List.append_nil log]
    exact inv_relayEnds hinv trivial rfl rfl rfl (Or.inr rfl)
  rw [step]
  cases event with
  | clientRead chunk world write => exact inv_clientTurn hinv chunk write
  | remoteRead chunk write => exact inv_remoteTurn hinv chunk write
  | clientFailed reason => exact hbail _
  | remoteFailed reason => exact hbail _
  | idle => exact hbail _
  | connected net failure => exact hinv

theorem good_step {c : Connection} (h : Good P s ctx.enforcement.auditBlock c)
    (event : StreamEvent) : Good P s ctx.enforcement.auditBlock (step P ctx c event) := by
  obtain ⟨phase, log⟩ := c
  have hinv : Inv P s ctx.enforcement.auditBlock log phase := h
  cases phase with
  | handshake hs =>
      have hnone : writes log = [] := by
        obtain ⟨-, -, -, -, -, -, hnone, -⟩ := hinv
        exact hnone
      rw [step]
      cases event with
      | clientRead chunk world write => exact inv_handshakeTurn hinv chunk world
      | clientFailed reason => exact Or.inl hnone
      | idle => exact Or.inl hnone
      | connected net failure => exact hinv
      | remoteRead chunk write => exact hinv
      | remoteFailed reason => exact hinv
  | connecting session served target initial =>
      rw [step]
      cases event with
      | connected net failure =>
          rcases inv_connectTurn hinv net failure with hrelay | ⟨result, acts, -, hclosed, -, hacts, -⟩
          · exact hrelay.good
          · obtain ⟨-, -, hopened⟩ := hinv
            change Good P s _ (settle ((connectTurn ctx session served target initial net
              failure).run log))
            rw [hclosed]
            refine Or.inl ?_
            rw [writes_append, hopened.unwritten, hacts]
            rfl
      | clientRead chunk world write => exact hinv
      | clientFailed reason => exact hinv
      | remoteRead chunk write => exact hinv
      | remoteFailed reason => exact hinv
      | idle => exact hinv
  | relay session served => exact (relaying_step hinv event).good
  | closed result =>
      rw [step]
      cases event <;> exact hinv

end Steps

theorem good_start {s : ServerSession} (hs : s.Fresh P) (auditBlock : Bool) :
    Good P s auditBlock (start s) :=
  ⟨([], .header, []), rfl, hs.took, rfl, rfl, rfl, rfl, rfl, rfl⟩

theorem good_run {s : ServerSession} (hs : s.Fresh P) (ctx : StreamContext) (events : List StreamEvent) :
    Good P s ctx.enforcement.auditBlock (Machine.run (step P ctx) (start s) events) := by
  have hstep (c : Connection) (event : StreamEvent) (h : Good P s ctx.enforcement.auditBlock c) :
      Good P s ctx.enforcement.auditBlock (step P ctx c event) := good_step h event
  exact Machine.run_keeps hstep (good_start hs _) events

section Progress

variable {s : ServerSession} {ctx : StreamContext} {log : List Action}

/-- A read that releases nothing leaves the handshake waiting. -/
theorem step_waits (ctx : StreamContext) {auditBlock : Bool} {h : Handshake}
    (hinv : Inv P s auditBlock log (.handshake h)) {chunk : List UInt8} (hchunk : chunk ≠ [])
    {r : Drained UInt8 UInt8 Phase} (hd : s.decoded P (wire log ++ chunk) = .ok r)
    (hnil : r.1 = []) (world : World) (write : Delivery) :
    ∃ h', step P ctx ⟨.handshake h, log⟩ (.clientRead chunk world write) =
      ⟨.handshake h', log ++ [.read chunk]⟩ := by
  obtain ⟨r₀, hset, htook, -⟩ := hinv
  have hstep := ServerSession.decrypt_took htook chunk
  rw [ServerSession.decoded_settings hset, hd] at hstep
  obtain ⟨out, hout, hcall, -⟩ := hstep
  have hempty : out = [] := (List.append_eq_nil_iff.mp (hout.symm.trans hnil)).2
  have hadds : Adds (handshakeTurn P ctx h chunk world) (.ok (.handshake
      ⟨((ServerSession.decrypt P chunk).run h.session).2, h.appBuf,
        saturatingAdd h.preAuthUpload chunk.length⟩)) ([.read chunk] ++ []) := by
    simp only [handshakeTurn, if_neg hchunk, hcall, hempty, if_pos, lift_ok, pure_bind]
    exact (adds_perform _).bind (adds_pure _)
  refine ⟨⟨((ServerSession.decrypt P chunk).run h.session).2, h.appBuf,
    saturatingAdd h.preAuthUpload chunk.length⟩, ?_⟩
  change settle ((handshakeTurn P ctx h chunk world).run log) = _
  rw [hadds log]
  rfl

/-- Reads that release nothing leave the handshake waiting, however many there are. -/
theorem run_waits {ctx : StreamContext} {h : Handshake}
    (hinv : Inv P s ctx.enforcement.auditBlock log (.handshake h)) {chunks : List (List UInt8)}
    (hne : ∀ chunk ∈ chunks, chunk ≠ []) {r : Drained UInt8 UInt8 Phase}
    (hd : s.decoded P (wire log ++ chunks.flatten) = .ok r) (hnil : r.1 = []) (world : World) :
    ∃ h' log', Machine.run (step P ctx) ⟨.handshake h, log⟩
        (chunks.map fun chunk => .clientRead chunk world .done) = ⟨.handshake h', log'⟩ ∧
      reads log' = reads log ++ chunks := by
  induction chunks generalizing h log with
  | nil => exact ⟨h, log, rfl, (List.append_nil _).symm⟩
  | cons chunk chunks ih =>
      rw [List.flatten_cons, ← List.append_assoc] at hd
      have hpre := ServerSession.decoded_prefix (P := P) s (wire log ++ chunk) chunks.flatten
      cases hd₁ : s.decoded P (wire log ++ chunk) with
      | error e =>
          rw [hd₁] at hpre
          rw [hpre] at hd
          cases hd
      | ok r₁ =>
          rw [hd₁] at hpre
          obtain ⟨out, hout⟩ := hpre r hd
          have hnil₁ : r₁.1 = [] := (List.append_eq_nil_iff.mp (hout.symm.trans hnil)).1
          obtain ⟨h₁, hstep⟩ := step_waits ctx hinv (hne chunk List.mem_cons_self) hd₁
            hnil₁ world .done
          have hgood : Good P s ctx.enforcement.auditBlock
              ⟨.handshake h₁, log ++ [.read chunk]⟩ := by
            have hbefore : Good P s ctx.enforcement.auditBlock ⟨.handshake h, log⟩ := hinv
            rw [← hstep]
            exact good_step hbefore _
          have hwire : wire (log ++ [.read chunk]) = wire log ++ chunk := by
            rw [wire_append]
            exact congrArg (wire log ++ ·) (List.append_nil chunk)
          rw [← hwire] at hd
          obtain ⟨h', log', hrun, hreads⟩ := ih hgood
            (fun c hc => hne c (List.mem_cons_of_mem chunk hc)) hd
          refine ⟨h', log', ?_, ?_⟩
          · rw [← hrun, ← hstep]
            rfl
          · rw [hreads, reads_append, List.append_assoc]
            rfl

theorem authenticated_opens {counters : Handle}
    (hcounters : ctx.tables.countersByUser[ctx.fallbackUserId]? = some counters)
    (hpolicies : ctx.tables.policies = ∅) (world : World) (session : ServerSession)
    (target : Address) (preAuthUpload : Nat) :
    ∃ served acts, Adds (authenticated ctx world session target [] preAuthUpload)
      (.ok (.connecting session served target [])) acts ∧ served.policy = none ∧
      reads acts = [] := by
  have hlookup : ∃ k, lookupCounters ctx (session.userId.getD ctx.fallbackUserId) = pure k := by
    unfold lookupCounters
    rw [hcounters]
    cases ctx.tables.countersByUser[session.userId.getD ctx.fallbackUserId]? with
    | some k => exact ⟨k, rfl⟩
    | none => exact ⟨counters, rfl⟩
  obtain ⟨k, hk⟩ := hlookup
  obtain ⟨acts, haudit, hreads, -⟩ :=
    auditInitial_adds ctx world (session.userId.getD ctx.fallbackUserId) []
  have hturn (limiter : Option Handle) : Adds (auditTurn ctx world session
      ⟨session.userId.getD ctx.fallbackUserId, k, limiter, none⟩ target [])
      (.ok (.connecting session ⟨session.userId.getD ctx.fallbackUserId, k, limiter, none⟩
        target [])) (acts ++ []) := haudit.bind (adds_pure _)
  simp only [authenticated, hk, hpolicies, Std.HashMap.getElem?_empty, acquireSlot, pure_bind,
    ite_true]
  refine ⟨_, _, (adds_perform _).bind (hturn _), rfl, ?_⟩
  rw [List.append_nil, reads_append, hreads]
  rfl

/-- A read that completes the header with nothing behind it opens the connection,
when there is a counter for the port and no limit. -/
theorem step_opens {auditBlock : Bool} {h : Handshake}
    (hinv : Inv P s auditBlock log (.handshake h)) (hbuf : h.appBuf = []) {counters : Handle}
    (hcounters : ctx.tables.countersByUser[ctx.fallbackUserId]? = some counters)
    (hpolicies : ctx.tables.policies = ∅) {chunk : List UInt8} (hchunk : chunk ≠ [])
    {r : Drained UInt8 UInt8 Phase} (hd : s.decoded P (wire log ++ chunk) = .ok r)
    {target : Address} (ha : addressAttempt r.1 = .accept r.1.length [] target) (world : World)
    (write : Delivery) :
    ∃ session served log', step P ctx ⟨.handshake h, log⟩ (.clientRead chunk world write) =
      ⟨.connecting session served target [], log'⟩ ∧ served.policy = none ∧
      reads log' = reads log ++ [chunk] := by
  obtain ⟨r₀, hset, htook, happ, -⟩ := hinv
  have hstep := ServerSession.decrypt_took htook chunk
  rw [ServerSession.decoded_settings hset, hd] at hstep
  obtain ⟨out, hout, hcall, -⟩ := hstep
  rw [← happ, hbuf, List.nil_append] at hout
  subst hout
  have hsome : r.1 ≠ [] := by
    intro hnil
    rw [hnil] at ha
    cases ha
  have hturn : handshakeTurn P ctx h chunk world = (do
      StreamTask.perform (.read chunk)
      authenticated ctx world ((ServerSession.decrypt P chunk).run h.session).2 target []
        (saturatingAdd h.preAuthUpload chunk.length)) := by
    simp only [handshakeTurn, if_neg hchunk, hcall, lift_ok, pure_bind, if_neg hsome, hbuf,
      List.nil_append, parse_spec, ha, slice_of_le (Nat.le_refl _) (Nat.le_refl _), window_self]
  obtain ⟨served, acts, hauth, hpolicy, hreads⟩ := authenticated_opens hcounters hpolicies world
    ((ServerSession.decrypt P chunk).run h.session).2 target
    (saturatingAdd h.preAuthUpload chunk.length)
  refine ⟨((ServerSession.decrypt P chunk).run h.session).2, served,
    log ++ ([.read chunk] ++ acts), ?_, hpolicy, ?_⟩
  · change settle ((handshakeTurn P ctx h chunk world).run log) = _
    rw [hturn, (adds_perform _).bind hauth log]
    rfl
  · rw [reads_append, reads_append, hreads]
    rfl

/-- Without a policy the connect goes to the target as it is named. -/
theorem step_connects (P : Primitives) (ctx : StreamContext) (session : ServerSession)
    (log : List Action) {served : Served} (hpolicy : served.policy = none) (target : Address) {net : Network} (hnet : net.connectHost = .ok ())
    (failure : Option (Nat × String)) :
    ∃ log', step P ctx ⟨.connecting session served target [], log⟩ (.connected net failure) =
      ⟨.relay session served, log'⟩ ∧ reads log' = reads log := by
  have hcheck : (connectTargetChecked target served.policy ctx.enforcement net).run [] =
      (.ok (.hostPort target.host target.port), [.hostPort target.host target.port]) := by
    simp only [connectTargetChecked, hpolicy, portCheck, ipCheck, Option.any_none, Bool.and_false,
      Bool.false_eq_true, ite_false, hnet]
    rfl
  have hadds : Adds (connectTurn ctx session served target [] net failure)
      (.ok (.relay session served)) ([.contact (.hostPort target.host target.port)] ++ []) := by
    simp only [connectTurn, hcheck, lift_ok, pure_bind, if_pos]
    exact (adds_modify _).bind (adds_pure _)
  refine ⟨log ++ [.contact (.hostPort target.host target.port)], ?_, ?_⟩
  · change settle ((connectTurn ctx session served target [] net failure).run log) = _
    rw [hadds log]
    rfl
  · rw [reads_append]
    exact List.append_nil _

/-- A read of the relay whose bytes decode, and whose write succeeds. -/
theorem step_relays (ctx : StreamContext) {auditBlock : Bool} {session : ServerSession} {served : Served}
    (hinv : Inv P s auditBlock log (.relay session served)) {chunk : List UInt8}
    (hchunk : chunk ≠ []) {r : Drained UInt8 UInt8 Phase}
    (hd : s.decoded P (wire log ++ chunk) = .ok r) (world : World) :
    ∃ session' log', step P ctx ⟨.relay session served, log⟩ (.clientRead chunk world .done) =
      ⟨.relay session' served, log'⟩ ∧ reads log' = reads log ++ [chunk] := by
  obtain ⟨hset, r₀, -, -, -, -, -, htook, -⟩ := hinv
  have hstep := ServerSession.decrypt_took htook chunk
  rw [ServerSession.decoded_settings hset, hd] at hstep
  obtain ⟨out, hout, hcall, -⟩ := hstep
  have hadds : ∃ acts, Adds (clientTurn P session served chunk .done)
      (.ok (.relay ((ServerSession.decrypt P chunk).run session).2 served)) acts ∧
      reads acts = [chunk] := by
    simp only [clientTurn, if_neg hchunk, hcall, lift_ok, pure_bind]
    by_cases hempty : out = []
    · rw [if_pos hempty]
      exact ⟨_, (adds_perform _).bind ((adds_perform _).bind (adds_pure _)), rfl⟩
    · rw [if_neg hempty]
      obtain ⟨acts, hthrottle, hquiet⟩ := throttle_adds served.limiter out.length
      refine ⟨_, (adds_perform _).bind ((adds_perform _).bind (hthrottle.bind
        ((adds_perform _).bind (adds_pure _)))), ?_⟩
      rw [reads_append, reads_append, reads_append, hquiet.reads_eq]
      rfl
  obtain ⟨acts, hadds, hreads⟩ := hadds
  refine ⟨((ServerSession.decrypt P chunk).run session).2, log ++ acts, ?_, ?_⟩
  · change settle ((clientTurn P session served chunk .done).run log) = _
    rw [hadds log]
    rfl
  · rw [reads_append, hreads]

end Progress

end Connection

end SsrBackend
