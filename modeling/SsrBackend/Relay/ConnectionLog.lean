import SsrBackend.Relay.Connection
import SsrBackend.Ssr.SessionRuns

/-!
What the log of a connection says, and what one turn of the task adds to it. The
lemmas here are the only ones that look inside the turns: each names the result
of a turn together with the reads, writes, scans and records that it appends.
-/

namespace SsrBackend

namespace Action

def read? : Action → Option (List UInt8)
  | read chunk => some chunk
  | _ => none

def written? : Action → Option (List UInt8 × Nat)
  | writeRemote data sent => some (data, sent)
  | _ => none

def scanned? : Action → Option (RuleSet × List UInt8)
  | scan rules data => some (rules, data)
  | _ => none

def uploaded? : Action → Option Nat
  | recordUpload _ bytes => some bytes
  | _ => none

end Action

namespace Connection

open Call Resumable StreamTask

/-- The chunks read from the client, in order. -/
def reads (log : List Action) : List (List UInt8) := log.filterMap Action.read?

/-- The wire bytes read so far. -/
def wire (log : List Action) : List UInt8 := (reads log).flatten

/-- The writes to the target: what was handed over, and how much of it was sent. -/
def writes (log : List Action) : List (List UInt8 × Nat) := log.filterMap Action.written?

/-- The bytes written to the target. -/
def written (log : List Action) : List UInt8 := (writes log).flatMap fun w => w.1.take w.2

def scans (log : List Action) : List (RuleSet × List UInt8) := log.filterMap Action.scanned?

/-- The upload recorded for the connection. -/
def uploaded (log : List Action) : Nat := (log.filterMap Action.uploaded?).sum

section Append

variable (xs ys : List Action)

@[simp] theorem reads_nil : reads [] = [] := rfl

@[simp] theorem wire_nil : wire [] = [] := rfl

@[simp] theorem reads_append : reads (xs ++ ys) = reads xs ++ reads ys := List.filterMap_append

@[simp] theorem wire_append : wire (xs ++ ys) = wire xs ++ wire ys := by
  rw [wire, reads_append, List.flatten_append]
  rfl

@[simp] theorem writes_append : writes (xs ++ ys) = writes xs ++ writes ys :=
  List.filterMap_append

@[simp] theorem written_append : written (xs ++ ys) = written xs ++ written ys := by
  rw [written, writes_append, List.flatMap_append]
  rfl

@[simp] theorem scans_append : scans (xs ++ ys) = scans xs ++ scans ys := List.filterMap_append

@[simp] theorem uploaded_append : uploaded (xs ++ ys) = uploaded xs + uploaded ys := by
  rw [uploaded, List.filterMap_append, List.sum_append]
  rfl

end Append

/-- Actions that concern neither the client's bytes nor the target's. -/
structure Silent (acts : List Action) : Prop where
  reads_eq : reads acts = []
  writes_eq : writes acts = []
  scans_eq : scans acts = []
  uploaded_eq : uploaded acts = 0

theorem silent_nil : Silent [] := ⟨rfl, rfl, rfl, rfl⟩

theorem Silent.append {xs ys : List Action} (hx : Silent xs) (hy : Silent ys) :
    Silent (xs ++ ys) := by
  refine ⟨?_, ?_, ?_, ?_⟩
  · rw [reads_append, hx.reads_eq, hy.reads_eq, List.nil_append]
  · rw [writes_append, hx.writes_eq, hy.writes_eq, List.nil_append]
  · rw [scans_append, hx.scans_eq, hy.scans_eq, List.nil_append]
  · rw [uploaded_append, hx.uploaded_eq, hy.uploaded_eq]

theorem silent_emit (events : List RelayEvent) : Silent (events.map Action.emit) := by
  induction events with
  | nil => exact silent_nil
  | cons event events ih =>
      have hone : Silent [.emit event] := ⟨rfl, rfl, rfl, rfl⟩
      exact hone.append ih

theorem silent_contact (contacts : List Contact) : Silent (contacts.map Action.contact) := by
  induction contacts with
  | nil => exact silent_nil
  | cons contact contacts ih =>
      have hone : Silent [.contact contact] := ⟨rfl, rfl, rfl, rfl⟩
      exact hone.append ih

/-- The turn closes the connection. -/
def Ends : Outcome StreamError StreamPhase → Prop
  | .ok (.closed _) => True
  | .ok _ => False
  | .err _ => True
  | .panic => True

/-- A turn that ends with an error. -/
def Fails (o : Outcome StreamError StreamPhase) : Prop := ∀ phase, o ≠ .ok phase

theorem fails_err (e : StreamError) : Fails (.err e) := by
  intro phase h
  cases h

theorem Fails.ends {o : Outcome StreamError StreamPhase} (h : Fails o) : Ends o := by
  cases o with
  | ok phase => exact absurd rfl (h phase)
  | err e => trivial
  | panic => trivial

/-- A turn with the actions it appends. -/
def Adds {α : Type} (task : StreamTask α) (o : Outcome StreamError α) (acts : List Action) : Prop :=
  ∀ log, task.run log = (o, log ++ acts)

theorem Adds.bind {α β : Type} {task : StreamTask α} {next : α → StreamTask β} {a : α}
    {o : Outcome StreamError β} {xs ys : List Action} (h : Adds task (.ok a) xs)
    (hnext : Adds (next a) o ys) : Adds (task >>= next) o (xs ++ ys) := by
  intro log
  rw [Call.run_bind, h log]
  simp only [hnext (log ++ xs), List.append_assoc]

theorem Adds.bind_err {α β : Type} {task : StreamTask α} {next : α → StreamTask β}
    {e : StreamError} {xs : List Action} (h : Adds task (.err e) xs) :
    Adds (task >>= next) (.err e) xs := by
  intro log
  rw [Call.run_bind, h log]

theorem adds_pure {α : Type} (a : α) : Adds (pure a : StreamTask α) (.ok a) [] := by
  intro log
  rw [List.append_nil]
  rfl

theorem adds_bail {α : Type} (e : StreamError) : Adds (bail e : StreamTask α) (.err e) [] := by
  intro log
  rw [List.append_nil]
  rfl

theorem adds_perform (action : Action) : Adds (perform action) (.ok ()) [action] := fun _ => rfl

theorem adds_modify (acts : List Action) :
    Adds (modify (fun log => log ++ acts) : StreamTask Unit) (.ok ()) acts := fun _ => rfl

theorem throttle_adds (limiter : Option Handle) (amount : Nat) :
    ∃ acts, Adds (throttle limiter amount) (.ok ()) acts ∧ Silent acts := by
  cases limiter with
  | none => exact ⟨[], adds_pure (), silent_nil⟩
  | some limiter => exact ⟨[.acquire limiter amount], adds_perform _, rfl, rfl, rfl, rfl⟩

/-- A write to the target is logged, and fails or goes on. -/
theorem writeRemote_adds (data : List UInt8) (write : Delivery) :
    Adds (writeRemote data write) (.ok ()) [.writeRemote data data.length] ∨
      ∃ e sent, Adds (writeRemote data write) (.err e) [.writeRemote data sent] := by
  cases write with
  | done => exact Or.inl (adds_perform _)
  | failed sent reason => exact Or.inr ⟨_, sent, (adds_perform _).bind (adds_bail _)⟩
  | timedOut sent => exact Or.inr ⟨_, sent, (adds_perform _).bind (adds_bail _)⟩

theorem writeClient_adds (data : List UInt8) (write : Delivery) :
    ∃ acts, Silent acts ∧ (Adds (writeClient data write) (.ok ()) acts ∨
      ∃ e, Adds (writeClient data write) (.err e) acts) := by
  cases write with
  | done =>
      exact ⟨[.writeClient data data.length], ⟨rfl, rfl, rfl, rfl⟩, Or.inl (adds_perform _)⟩
  | failed sent reason =>
      exact ⟨[.writeClient data sent], ⟨rfl, rfl, rfl, rfl⟩,
        Or.inr ⟨_, (adds_perform _).bind (adds_bail _)⟩⟩
  | timedOut sent =>
      exact ⟨[.writeClient data sent], ⟨rfl, rfl, rfl, rfl⟩,
        Or.inr ⟨_, (adds_perform _).bind (adds_bail _)⟩⟩

theorem lookupCounters_adds (ctx : StreamContext) (userId : Nat) :
    (∃ counters, Adds (lookupCounters ctx userId) (.ok counters) []) ∨
      Adds (lookupCounters ctx userId) (.err (.noCounter userId)) [] := by
  unfold lookupCounters
  cases ctx.tables.countersByUser[userId]? with
  | some counters => exact Or.inl ⟨counters, adds_pure _⟩
  | none =>
      cases ctx.tables.countersByUser[ctx.fallbackUserId]? with
      | some counters => exact Or.inl ⟨counters, adds_pure _⟩
      | none => exact Or.inr (adds_bail _)

/-- The device limit turns a connection of the user away. -/
def Refused (ctx : StreamContext) (world : World) (userId : Nat) : Prop :=
  ctx.enforcement.connLimit = true ∧ ∃ policy set, ctx.tables.policies[userId]? = some policy ∧
    0 < policy.connLimit ∧ ctx.tables.connsByUser[userId]? = some set ∧
    ConnGuard.acquire (world.ips set) ctx.peerIp policy.connLimit = none

theorem acquireSlot_adds (ctx : StreamContext) (world : World) (userId : Nat) :
    ∃ acts, Silent acts ∧
      (Adds (acquireSlot ctx world userId ctx.tables.policies[userId]?) (.ok true) acts ∨
        Adds (acquireSlot ctx world userId ctx.tables.policies[userId]?) (.ok false) acts ∧
          Refused ctx world userId ∨
        ∃ e, Adds (acquireSlot ctx world userId ctx.tables.policies[userId]?) (.err e) acts) := by
  cases hpolicy : ctx.tables.policies[userId]? with
  | none => exact ⟨[], silent_nil, Or.inl (adds_pure _)⟩
  | some policy =>
      unfold acquireSlot
      by_cases hlimit : ctx.enforcement.connLimit ∧ 0 < policy.connLimit
      · simp only [if_pos hlimit]
        cases hset : ctx.tables.connsByUser[userId]? with
        | none => exact ⟨[], silent_nil, Or.inr (Or.inr ⟨_, adds_bail _⟩)⟩
        | some set =>
            simp only
            cases hguard : ConnGuard.acquire (world.ips set) ctx.peerIp policy.connLimit with
            | none =>
                exact ⟨[], silent_nil, Or.inr (Or.inl ⟨adds_pure _,
                  hlimit.1, policy, set, hpolicy, hlimit.2, hset, hguard⟩)⟩
            | some _ =>
                exact ⟨[.takeSlot set ctx.peerIp], ⟨rfl, rfl, rfl, rfl⟩,
                  Or.inl ((adds_perform _).bind (adds_pure _))⟩
      · simp only [if_neg hlimit]
        exact ⟨[], silent_nil, Or.inl (adds_pure _)⟩

/-- The audit makes one scan, of the initial payload. -/
theorem auditInitial_adds (ctx : StreamContext) (world : World) (userId : Nat)
    (initial : List UInt8) :
    ∃ acts, Adds (auditInitial ctx world userId initial)
        (.ok (initial ≠ [] && world.rules.any fun rule => rule.isMatch initial)) acts ∧
      reads acts = [] ∧ writes acts = [] ∧ uploaded acts = 0 ∧
      scans acts = [(world.rules, initial)] := by
  have hemit := silent_emit ((ConnectionAuditor.new userId ctx.peerIp ctx.peer).scan world.rules
    initial).events
  refine ⟨[.emit (ConnectionAuditor.new userId ctx.peerIp ctx.peer).reportConnect] ++
    ([.scan world.rules initial] ++ (((ConnectionAuditor.new userId ctx.peerIp ctx.peer).scan
      world.rules initial).events.map Action.emit ++ [])), ?_, ?_, ?_, ?_, ?_⟩
  · rw [← ConnectionAuditor.scan_matchedNow (ConnectionAuditor.new userId ctx.peerIp ctx.peer)]
    exact (adds_perform _).bind ((adds_perform _).bind ((adds_modify _).bind (adds_pure _)))
  · rw [List.append_nil, reads_append, reads_append, hemit.reads_eq]
    rfl
  · rw [List.append_nil, writes_append, writes_append, hemit.writes_eq]
    rfl
  · rw [List.append_nil, uploaded_append, uploaded_append, hemit.uploaded_eq]
    rfl
  · rw [List.append_nil, scans_append, scans_append, hemit.scans_eq]
    rfl

/-- The rules let the payload pass. -/
def Cleared (rules : RuleSet) (data : List UInt8) : Prop :=
  ∀ rule ∈ rules, rule.isMatch data = false

theorem auditTurn_adds (ctx : StreamContext) (world : World) (session : ServerSession)
    (served : Served) (target : Address) (initial : List UInt8) :
    ∃ o acts, Adds (auditTurn ctx world session served target initial) o acts ∧
      reads acts = [] ∧ writes acts = [] ∧ uploaded acts = 0 ∧
      scans acts = [(world.rules, initial)] ∧
      (Fails o ∨ o = .ok (.connecting session served target initial) ∧
        (ctx.enforcement.auditBlock = true → initial ≠ [] → Cleared world.rules initial)) := by
  obtain ⟨acts, haudit, hreads, hwrites, huploaded, hscans⟩ :=
    auditInitial_adds ctx world served.userId initial
  cases hblock : (initial ≠ [] && world.rules.any fun rule => rule.isMatch initial) &&
      ctx.enforcement.auditBlock with
  | true =>
      refine ⟨.err .detectRule, acts ++ [], haudit.bind ?_, ?_⟩
      · rw [if_pos hblock]
        exact adds_bail _
      · rw [List.append_nil]
        exact ⟨hreads, hwrites, huploaded, hscans, Or.inl (fails_err _)⟩
  | false =>
      refine ⟨.ok (.connecting session served target initial), acts ++ [], haudit.bind ?_, ?_⟩
      · rw [if_neg (by rw [hblock]; exact Bool.false_ne_true)]
        exact adds_pure _
      · rw [List.append_nil]
        refine ⟨hreads, hwrites, huploaded, hscans, Or.inr ⟨rfl, ?_⟩⟩
        intro hon hne rule hrule
        by_contra hmatch
        have hany : (world.rules.any fun rule => rule.isMatch initial) = true :=
          List.any_eq_true.mpr ⟨rule, hrule, by simpa using hmatch⟩
        simp [hne, hany, hon] at hblock

/-- A turn that drops a client with a complete header: it fails, or the device limit
turns the client away. The handshake bytes are recorded unless there is no counter. -/
structure Drops (ctx : StreamContext) (world : World) (userId preAuthUpload : Nat)
    (o : Outcome StreamError StreamPhase) (acts : List Action) : Prop where
  result : Fails o ∨ o = .ok (.closed (.ok ())) ∧ Refused ctx world userId
  counted : uploaded acts = preAuthUpload ∨ uploaded acts = 0 ∧ o = .err (.noCounter userId)

theorem Drops.ends {ctx : StreamContext} {world : World} {userId preAuthUpload : Nat}
    {o : Outcome StreamError StreamPhase} {acts : List Action}
    (h : Drops ctx world userId preAuthUpload o acts) : Ends o := by
  rcases h.result with hfails | ⟨rfl, -⟩
  · exact hfails.ends
  · trivial

/-- A client with a complete header is dropped, or goes on to the connect with its
handshake bytes recorded and its initial payload scanned. -/
theorem authenticated_adds (ctx : StreamContext) (world : World) (session : ServerSession)
    (target : Address) (initial : List UInt8) (preAuthUpload : Nat) :
    ∃ o acts, Adds (authenticated ctx world session target initial preAuthUpload) o acts ∧
      reads acts = [] ∧ writes acts = [] ∧
      (Drops ctx world (session.userId.getD ctx.fallbackUserId) preAuthUpload o acts ∨
        ∃ served, o = .ok (.connecting session served target initial) ∧
        uploaded acts = preAuthUpload ∧ scans acts = [(world.rules, initial)] ∧
        (ctx.enforcement.auditBlock = true → initial ≠ [] → Cleared world.rules initial)) := by
  unfold authenticated
  rcases lookupCounters_adds ctx (session.userId.getD ctx.fallbackUserId) with
    ⟨counters, hcount⟩ | hcount
  swap
  · exact ⟨_, _, hcount.bind_err, rfl, rfl, Or.inl ⟨Or.inl (fails_err _), Or.inr ⟨rfl, rfl⟩⟩⟩
  obtain ⟨slot, hsilent, hslot⟩ := acquireSlot_adds ctx world
    (session.userId.getD ctx.fallbackUserId)
  have hrecord := adds_perform (.recordUpload counters preAuthUpload)
  have hkeeps (ys : List Action) :
      reads ([] ++ ([.recordUpload counters preAuthUpload] ++ (slot ++ ys))) = reads ys ∧
      writes ([] ++ ([.recordUpload counters preAuthUpload] ++ (slot ++ ys))) = writes ys ∧
      scans ([] ++ ([.recordUpload counters preAuthUpload] ++ (slot ++ ys))) = scans ys ∧
      uploaded ([] ++ ([.recordUpload counters preAuthUpload] ++ (slot ++ ys))) =
        preAuthUpload + uploaded ys := by
    simp only [List.nil_append, reads_append, writes_append, scans_append, uploaded_append,
      hsilent.reads_eq, hsilent.writes_eq, hsilent.scans_eq, hsilent.uploaded_eq, Nat.zero_add]
    exact ⟨rfl, rfl, rfl, rfl⟩
  rcases hslot with hslot | ⟨hslot, hrefused⟩ | ⟨e, hslot⟩
  · obtain ⟨o, acts, haudit, hreads, hwrites, huploaded, hscans, hend⟩ := auditTurn_adds ctx
      world session ⟨session.userId.getD ctx.fallbackUserId, counters,
        if ctx.enforcement.speed then
          ctx.tables.speedsByUser[session.userId.getD ctx.fallbackUserId]? else none,
        ctx.tables.policies[session.userId.getD ctx.fallbackUserId]?⟩ target initial
    have hcounted : uploaded ([] ++ ([.recordUpload counters preAuthUpload] ++ (slot ++ acts))) =
        preAuthUpload := by
      rw [(hkeeps acts).2.2.2, huploaded, Nat.add_zero]
    refine ⟨o, _, hcount.bind (hrecord.bind (hslot.bind haudit)), ?_, ?_, ?_⟩
    · rw [(hkeeps acts).1, hreads]
    · rw [(hkeeps acts).2.1, hwrites]
    · rcases hend with hend | ⟨hend, hclear⟩
      · exact Or.inl ⟨Or.inl hend, Or.inl hcounted⟩
      · refine Or.inr ⟨_, hend, hcounted, ?_, hclear⟩
        rw [(hkeeps acts).2.2.1, hscans]
  · exact ⟨_, _, hcount.bind (hrecord.bind (hslot.bind (adds_pure _))), (hkeeps []).1,
      (hkeeps []).2.1, Or.inl ⟨Or.inr ⟨rfl, hrefused⟩, Or.inl (hkeeps []).2.2.2⟩⟩
  · refine ⟨.err e, [] ++ ([.recordUpload counters preAuthUpload] ++ (slot ++ [])), ?_,
      (hkeeps []).1, (hkeeps []).2.1, Or.inl ⟨Or.inl (fails_err _), Or.inl (hkeeps []).2.2.2⟩⟩
    rw [List.append_nil]
    exact hcount.bind (hrecord.bind hslot.bind_err)

section Turns

variable {P : Primitives} {session : ServerSession} {taken : List UInt8}
  {r : Drained UInt8 UInt8 Phase}

theorem lift_ok {ε α : Type} (wrap : ε → StreamError) (a : α) : lift wrap (.ok a) = pure a := rfl

/-- A turn of the handshake loop that has read something: it fails, or waits for more
of the header, or the header is complete and the client is dropped or goes on. -/
theorem handshakeTurn_adds (ctx : StreamContext) {h : Handshake} (htook : h.session.Took P taken r)
    (hbuf : h.appBuf = r.1) (hwait : addressAttempt r.1 = .wait) {chunk : List UInt8}
    (hchunk : chunk ≠ []) (world : World) :
    ∃ o acts, Adds (handshakeTurn P ctx h chunk world) o acts ∧ reads acts = [chunk] ∧
      writes acts = [] ∧
      ((Fails o ∧ uploaded acts = 0 ∧ ∀ r', h.session.decoded P (taken ++ chunk) = .ok r' →
          ∀ n rest target, addressAttempt r'.1 ≠ .accept n rest target) ∨
        ∃ r', ((ServerSession.decrypt P chunk).run h.session).2.Took P (taken ++ chunk) r' ∧
        ((addressAttempt r'.1 = .wait ∧ scans acts = [] ∧ uploaded acts = 0 ∧
          o = .ok (.handshake ⟨((ServerSession.decrypt P chunk).run h.session).2, r'.1,
            saturatingAdd h.preAuthUpload chunk.length⟩)) ∨
        ∃ n target, addressAttempt r'.1 = .accept n [] target ∧
          (Drops ctx world (((ServerSession.decrypt P chunk).run h.session).2.userId.getD
              ctx.fallbackUserId) (saturatingAdd h.preAuthUpload chunk.length) o acts ∨
            ∃ served, o = .ok (.connecting ((ServerSession.decrypt P chunk).run h.session).2
              served target (r'.1.drop n)) ∧
            uploaded acts = saturatingAdd h.preAuthUpload chunk.length ∧
            scans acts = [(world.rules, r'.1.drop n)] ∧
            (ctx.enforcement.auditBlock = true → r'.1.drop n ≠ [] →
              Cleared world.rules (r'.1.drop n))))) := by
  have hread := adds_perform (.read chunk)
  have hstep := ServerSession.decrypt_took htook chunk
  simp only [handshakeTurn, if_neg hchunk]
  cases hd : h.session.decoded P (taken ++ chunk) with
  | error e =>
      rw [hd] at hstep
      rw [hstep.1]
      refine ⟨_, _, hread.bind (adds_bail _).bind_err, rfl, rfl, Or.inl ⟨fails_err _, rfl, ?_⟩⟩
      rintro r' ⟨⟩
  | ok r' =>
      rw [hd] at hstep
      obtain ⟨out, hout, hcall, hnext⟩ := hstep
      rw [hcall]
      simp only [lift_ok, pure_bind]
      by_cases hnone : out = []
      · have hsame : r'.1 = r.1 := by rw [hout, hnone, List.append_nil]
        rw [if_pos hnone]
        refine ⟨_, _, hread.bind (adds_pure _), rfl, rfl, Or.inr ⟨r', hnext, Or.inl ⟨?_, rfl, rfl, ?_⟩⟩⟩
        · rw [hsame]
          exact hwait
        · rw [hsame, hbuf]
      · rw [if_neg hnone, hbuf, ← hout, parse_spec]
        cases ha : addressAttempt r'.1 with
        | reject e =>
            refine ⟨_, _, hread.bind (adds_bail _).bind_err, rfl, rfl,
              Or.inl ⟨fails_err _, rfl, ?_⟩⟩
            rintro r'' ⟨⟩ n rest target haccept
            rw [ha] at haccept
            cases haccept
        | wait =>
            simp only [lift_ok, pure_bind]
            by_cases hlong : maxHandshakeBytes < r'.1.length
            · rw [if_pos hlong]
              refine ⟨_, _, hread.bind (adds_bail _), rfl, rfl, Or.inl ⟨fails_err _, rfl, ?_⟩⟩
              rintro r'' ⟨⟩ n rest target haccept
              rw [ha] at haccept
              cases haccept
            · rw [if_neg hlong]
              exact ⟨_, _, hread.bind (adds_pure _), rfl, rfl,
                Or.inr ⟨r', hnext, Or.inl ⟨ha, rfl, rfl, rfl⟩⟩⟩
        | accept n rest target =>
            obtain ⟨hle, rfl⟩ := addressAttempt_le ha
            have hslice : (slice r'.1 n r'.1.length : StreamTask _) = pure (r'.1.drop n) := by
              rw [slice_of_le hle (Nat.le_refl _), window, List.take_length]
            simp only [lift_ok, pure_bind, hslice]
            obtain ⟨o, acts, hauth, hreads, hwrites, hend⟩ := authenticated_adds ctx world
              ((ServerSession.decrypt P chunk).run h.session).2 target (r'.1.drop n)
              (saturatingAdd h.preAuthUpload chunk.length)
            have hcount : uploaded ([.read chunk] ++ acts) = uploaded acts := by
              rw [uploaded_append]
              exact Nat.zero_add _
            refine ⟨o, _, hread.bind hauth, ?_, ?_, Or.inr ⟨r', hnext, Or.inr ⟨n, target, ha, ?_⟩⟩⟩
            · rw [reads_append, hreads]
              rfl
            · rw [writes_append, hwrites]
              rfl
            · rw [hcount]
              rcases hend with hend | ⟨served, rfl, huploaded, hscans, hclear⟩
              · exact Or.inl ⟨hend.result, by rw [hcount]; exact hend.counted⟩
              · refine Or.inr ⟨served, rfl, huploaded, ?_, hclear⟩
                rw [scans_append, hscans]
                rfl

/-- The connect: it fails, or the relay starts with the initial payload written. -/
theorem connectTurn_adds (ctx : StreamContext) (session : ServerSession) (served : Served)
    (target : Address) (initial : List UInt8) (net : Network) (failure : Option (Nat × String)) :
    ∃ o acts, Adds (connectTurn ctx session served target initial net failure) o acts ∧
      reads acts = [] ∧ scans acts = [] ∧ uploaded acts = 0 ∧
      (o = .ok (.relay session served) ∧ (initial = [] ∧ writes acts = [] ∨
          initial ≠ [] ∧ writes acts = [(initial, initial.length)]) ∨
        Fails o ∧ (writes acts = [] ∨ initial ≠ [] ∧ ∃ sent, writes acts = [(initial, sent)])) := by
  have hcontacts := adds_modify
    (((connectTargetChecked target served.policy ctx.enforcement net).run []).2.map Action.contact)
  have hsilent := silent_contact
    ((connectTargetChecked target served.policy ctx.enforcement net).run []).2
  simp only [connectTurn]
  cases hconn : ((connectTargetChecked target served.policy ctx.enforcement net).run []).1 with
  | err e =>
      refine ⟨_, _, hcontacts.bind (adds_bail _).bind_err, ?_⟩
      rw [List.append_nil]
      exact ⟨hsilent.reads_eq, hsilent.scans_eq, hsilent.uploaded_eq,
        Or.inr ⟨fails_err _, Or.inl hsilent.writes_eq⟩⟩
  | panic =>
      obtain ⟨o, contacts, hrun, hsafe, -⟩ :=
        connectTargetChecked_run target served.policy ctx.enforcement net []
      rw [hrun] at hconn
      exact absurd hconn hsafe
  | ok contact =>
      simp only [lift_ok, pure_bind]
      by_cases hempty : initial = []
      · simp only [if_pos hempty]
        refine ⟨_, _, hcontacts.bind (adds_pure _), ?_⟩
        rw [List.append_nil]
        exact ⟨hsilent.reads_eq, hsilent.scans_eq, hsilent.uploaded_eq,
          Or.inl ⟨rfl, Or.inl ⟨hempty, hsilent.writes_eq⟩⟩⟩
      · obtain ⟨acts, hthrottle, hquiet⟩ := throttle_adds served.limiter initial.length
        simp only [if_neg hempty]
        have hacts := hsilent.append hquiet
        rcases writeRemote_adds initial (initialDelivery failure) with hwrite | ⟨e, sent, hwrite⟩
        swap
        · refine ⟨_, _, hcontacts.bind (hthrottle.bind hwrite.bind_err), ?_⟩
          rw [← List.append_assoc, reads_append, scans_append, uploaded_append, writes_append,
            hacts.reads_eq, hacts.scans_eq, hacts.uploaded_eq, hacts.writes_eq]
          exact ⟨rfl, rfl, rfl, Or.inr ⟨fails_err _, Or.inr ⟨hempty, sent, rfl⟩⟩⟩
        · refine ⟨_, _, hcontacts.bind (hthrottle.bind (hwrite.bind (adds_pure _))), ?_⟩
          rw [List.append_nil, ← List.append_assoc, reads_append, scans_append, uploaded_append,
            writes_append, hacts.reads_eq, hacts.scans_eq, hacts.uploaded_eq, hacts.writes_eq]
          exact ⟨rfl, rfl, rfl, Or.inl ⟨rfl, Or.inr ⟨hempty, rfl⟩⟩⟩

/-- The relay's arm for a chunk of the client: it is recorded, and what it decodes
to is written. -/
theorem clientTurn_adds (htook : session.Took P taken r) (served : Served) {chunk : List UInt8}
    (hchunk : chunk ≠ []) (write : Delivery) :
    ∃ o acts, Adds (clientTurn P session served chunk write) o acts ∧ reads acts = [chunk] ∧
      scans acts = [] ∧ uploaded acts = chunk.length ∧
      ((Fails o ∧ writes acts = []) ∨ ∃ r' out, r'.1 = r.1 ++ out ∧
        session.decoded P (taken ++ chunk) = .ok r' ∧
        ((Fails o ∧ out ≠ [] ∧ ∃ sent, writes acts = [(out, sent)]) ∨
          o = .ok (.relay ((ServerSession.decrypt P chunk).run session).2 served) ∧
          ((ServerSession.decrypt P chunk).run session).2.Took P (taken ++ chunk) r' ∧
          (out = [] ∧ writes acts = [] ∨ out ≠ [] ∧ writes acts = [(out, out.length)]))) := by
  have hread := adds_perform (.read chunk)
  have hrecord := adds_perform (.recordUpload served.counters chunk.length)
  have hstep := ServerSession.decrypt_took htook chunk
  simp only [clientTurn, if_neg hchunk]
  cases hd : session.decoded P (taken ++ chunk) with
  | error e =>
      rw [hd] at hstep
      rw [hstep.1]
      exact ⟨_, _, hread.bind (hrecord.bind (adds_bail _).bind_err), rfl, rfl, rfl,
        Or.inl ⟨fails_err _, rfl⟩⟩
  | ok r' =>
      rw [hd] at hstep
      obtain ⟨out, hout, hcall, hnext⟩ := hstep
      rw [hcall]
      simp only [lift_ok, pure_bind]
      by_cases hnone : out = []
      · rw [if_pos hnone]
        exact ⟨_, _, hread.bind (hrecord.bind (adds_pure _)), rfl, rfl, rfl,
          Or.inr ⟨r', out, hout, rfl, Or.inr ⟨rfl, hnext, Or.inl ⟨hnone, rfl⟩⟩⟩⟩
      · rw [if_neg hnone]
        obtain ⟨acts, hthrottle, hquiet⟩ := throttle_adds served.limiter out.length
        have hcount (action : Action) (h : uploaded [action] = 0) : uploaded [.read chunk] +
            (uploaded [.recordUpload served.counters chunk.length] + (0 + uploaded [action])) =
            chunk.length := by
          rw [h]
          exact Nat.zero_add _
        rcases writeRemote_adds out write with hwrite | ⟨e, sent, hwrite⟩
        · refine ⟨_, _, hread.bind (hrecord.bind (hthrottle.bind (hwrite.bind (adds_pure _)))), ?_⟩
          simp only [List.append_nil, reads_append, scans_append, uploaded_append, writes_append, hquiet.reads_eq,
            hquiet.scans_eq, hquiet.uploaded_eq, hquiet.writes_eq]
          exact ⟨rfl, rfl, hcount (.writeRemote out out.length) rfl,
            Or.inr ⟨r', out, hout, rfl, Or.inr ⟨trivial, hnext, Or.inr ⟨hnone, rfl⟩⟩⟩⟩
        · refine ⟨_, _, hread.bind (hrecord.bind (hthrottle.bind hwrite.bind_err)), ?_⟩
          simp only [reads_append, scans_append, uploaded_append, writes_append, hquiet.reads_eq,
            hquiet.scans_eq, hquiet.uploaded_eq, hquiet.writes_eq]
          exact ⟨rfl, rfl, hcount (.writeRemote out sent) rfl,
            Or.inr ⟨r', out, hout, rfl, Or.inl ⟨fails_err _, hnone, sent, rfl⟩⟩⟩

/-- The relay's arm for a chunk of the target does not concern the client's bytes. -/
theorem remoteTurn_adds (htook : session.Took P taken r) (served : Served) (chunk : List UInt8)
    (write : Delivery) :
    ∃ o acts, Adds (remoteTurn P session served chunk write) o acts ∧ Silent acts ∧
      (Ends o ∨ ∃ next : ServerSession, o = .ok (.relay next served) ∧
        next.settings = session.settings ∧ next.Took P taken r) := by
  by_cases hchunk : chunk = []
  · simp only [remoteTurn, if_pos hchunk]
    exact ⟨_, _, adds_pure _, silent_nil, Or.inl trivial⟩
  · simp only [remoteTurn, if_neg hchunk]
    cases hcall : ((ServerSession.encrypt P chunk).run session).1 with
    | err e => exact ⟨_, _, (adds_bail _).bind_err, silent_nil, Or.inl trivial⟩
    | panic =>
        refine ⟨.panic, [], ?_, silent_nil, Or.inl trivial⟩
        intro log
        rw [List.append_nil]
        rfl
    | ok wire =>
        have hrecord := adds_perform (.recordDownload served.counters wire.length)
        have hone : Silent [.recordDownload served.counters wire.length] := ⟨rfl, rfl, rfl, rfl⟩
        obtain ⟨acts, hthrottle, hquiet⟩ := throttle_adds served.limiter wire.length
        obtain ⟨sends, hsilent, hwrite⟩ := writeClient_adds wire write
        simp only [lift_ok, pure_bind]
        rcases hwrite with hwrite | ⟨e, hwrite⟩
        · refine ⟨_, _, hrecord.bind (hthrottle.bind (hwrite.bind (adds_pure _))), ?_,
            Or.inr ⟨_, rfl, ServerSession.encrypt_settings session chunk,
              ServerSession.encrypt_took htook chunk⟩⟩
          rw [List.append_nil]
          exact hone.append (hquiet.append hsilent)
        · exact ⟨_, _, hrecord.bind (hthrottle.bind hwrite.bind_err),
            hone.append (hquiet.append hsilent), Or.inl trivial⟩

end Turns

end Connection

end SsrBackend
