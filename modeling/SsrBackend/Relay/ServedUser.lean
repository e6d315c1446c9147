import SsrBackend.Foundation.Effects
import SsrBackend.Relay.ConnectionRuns

/-!
Whom a connection is served for. The lookups of `handle_stream` are made once, with
the user that the codec has identified by then; no later call on the session changes
that user, so every action of a connection uses the objects of one user.
-/

namespace SsrBackend

open Call Resumable

variable {P : Primitives}

namespace ServerSession

/-- The auth packet has been accepted. -/
def Identified (s : ServerSession) : Prop :=
  ∃ decryptor protocol, s.decryptor = some decryptor ∧ s.protocol = some protocol ∧
    protocol.hasRecvHeader = true

theorem decrypt_identified {s : ServerSession} (h : s.Identified) (raw : List UInt8) :
    ((decrypt P raw).run s).2.Identified ∧ ((decrypt P raw).run s).2.userId = s.userId := by
  obtain ⟨decryptor, protocol, hd, hp, hheader⟩ := h
  rw [decrypt_of_some hd, decryptBody]
  by_cases hnil : raw = []
  · rw [if_pos hnil]
    exact ⟨⟨decryptor, protocol, hd, hp, hheader⟩, rfl⟩
  · rw [if_neg hnil]
    simp only [run_get_bind, hd, expect_some, pure_bind, run_modify_bind, onProtocol, hp]
    rw [AuthAes128Md5.serverPostDecrypt_stream hheader]
    obtain ⟨recvId, recvBuf, hframe⟩ := AuthAes128Md5.packetLoop_frame []
      (protocol.extendRecv (decryptor.process P raw).1)
    rw [hframe]
    refine ⟨⟨_, _, rfl, rfl, hheader⟩, ?_⟩
    rw [userId, userId, hp]
    rfl

theorem encrypt_identified {s : ServerSession} (h : s.Identified) (plaintext : List UInt8) :
    ((encrypt P plaintext).run s).2.Identified ∧
      ((encrypt P plaintext).run s).2.userId = s.userId := by
  obtain ⟨decryptor, protocol, hd, hp, hheader⟩ := h
  rw [encrypt_of_protocol hp]
  refine ⟨⟨decryptor, _, hd, rfl, hheader⟩, ?_⟩
  rw [userId, userId, hp]
  rfl

/-- A session that has released payload has accepted its auth packet. -/
theorem Took.identified {s : ServerSession} {wire : List UInt8} {r : Drained UInt8 UInt8 Phase}
    (h : s.Took P wire r) (hout : r.1 ≠ []) : s.Identified := by
  obtain ⟨packId, -, hstate⟩ := h.state_eq
  rcases factors_of_drain h.decoded_eq with ⟨-, hnone⟩ | ⟨who, id, hphase, -⟩
  · rw [hnone] at hout
    exact absurd rfl hout
  · rw [hstate, received_streaming packId h.decoded_eq hphase]
    exact ⟨_, _, rfl, rfl, rfl⟩

/-- The key of the user that the header has selected, the port's before. -/
def userKey? (s : ServerSession) : Option (List UInt8) := s.protocol.map AuthAes128Md5.userKey

/-- The user of a session is one of its table, and the session has the key of that user, also
before the auth packet is complete. -/
theorem Took.keyed {s : ServerSession} {wire : List UInt8} {r : Drained UInt8 UInt8 Phase}
    (h : s.Took P wire r) {u : Nat} (hu : s.userId = some u) :
    ∃ key, s.users[u]? = some key ∧ s.userKey? = some key := by
  obtain ⟨packId, -, hstate⟩ := h.state_eq
  rcases factors_of_drain h.decoded_eq with ⟨-, hheader⟩ | ⟨who, id, hphase, ⟨hfac⟩⟩
  · rw [received, hheader] at hstate
    split at hstate
    · rw [hstate] at hu
      cases hu
    · have hprotocol := congrArg protocol hstate
      rw [userId, hprotocol] at hu
      rw [userKey?, hprotocol]
      have hseen : (Phase.header.identity P (s.params wire) (s.plain P wire).1).userId = some u := hu
      refine ⟨(Phase.header.identity P (s.params wire) (s.plain P wire).1).userKey, ?_, rfl⟩
      rw [Phase.identity] at hseen ⊢
      by_cases hverified : HeaderVerified P (s.params wire) (s.plain P wire).1
      · rw [if_pos hverified] at hseen ⊢
        exact (Params.select_userId hseen).2
      · rw [if_neg hverified] at hseen
        cases hseen
  · have huser : (s.received P wire packId r).userId = who.userId :=
      received_userId h.decoded_eq hphase
    rw [← hstate, hu, ← hfac.selected] at huser
    refine ⟨who.userKey, ?_, ?_⟩
    · rw [← hfac.selected]
      exact (Params.select_userId huser.symm).2
    · rw [hstate, received_streaming packId h.decoded_eq hphase]
      rfl

/-- The user of a session is one of its table. -/
theorem Took.listed {s : ServerSession} {wire : List UInt8} {r : Drained UInt8 UInt8 Phase}
    (h : s.Took P wire r) {u : Nat} (hu : s.userId = some u) : u ∈ s.users := by
  obtain ⟨key, hkey, -⟩ := h.keyed hu
  rw [← Std.HashMap.isSome_getElem?_iff_mem, hkey]
  rfl

end ServerSession

namespace Connection

open StreamTask

variable {ctx : StreamContext}

/-- The counter that a connection of a user is recorded on. -/
def counters? (ctx : StreamContext) (userId : Nat) : Option Handle :=
  (ctx.tables.countersByUser[userId]?).or (ctx.tables.countersByUser[ctx.fallbackUserId]?)

/-- The shared objects of an action are those of the user. -/
def ActsFor (ctx : StreamContext) (userId : Nat) : Action → Prop
  | .recordUpload counters _ => counters? ctx userId = some counters
  | .recordDownload counters _ => counters? ctx userId = some counters
  | .takeSlot ips _ => ctx.tables.connsByUser[userId]? = some ips
  | .acquire limiter _ => ctx.tables.speedsByUser[userId]? = some limiter
  | _ => True

/-- An error about a missing object says that the user has none. -/
def FailsFor (ctx : StreamContext) (userId : Nat) : StreamError → Prop
  | .noCounter _ => counters? ctx userId = none
  | .noConnectionCounter _ => ctx.tables.connsByUser[userId]? = none ∧
      userId ∈ ctx.tables.policies
  | _ => True

/-- The results of the lookups are those of the user. -/
structure ServedFor (ctx : StreamContext) (userId : Nat) (served : Served) : Prop where
  counters_eq : counters? ctx userId = some served.counters
  limiter_eq : ∀ limiter, served.limiter = some limiter →
    ctx.tables.speedsByUser[userId]? = some limiter

/-- `Q` and `E` leave a turn its actions and errors for the user. What it charges to a
limiter is left to each turn, and the length limit of the handshake to the handshake. -/
structure Permits (ctx : StreamContext) (userId : Nat) (Q : Action → Prop)
    (E : StreamError → Prop) : Prop where
  action : ∀ {action}, ActsFor ctx userId action →
    (∀ limiter amount, action ≠ .acquire limiter amount) → Q action
  error : ∀ {e}, FailsFor ctx userId e → e ≠ .handshakeTooLong → E e

theorem permits_user (ctx : StreamContext) (userId : Nat) :
    Permits ctx userId (ActsFor ctx userId) (FailsFor ctx userId) :=
  ⟨fun h _ => h, fun h _ => h⟩

section Tasks

variable {userId : Nat} {α : Type} {Q : Action → Prop} {E : StreamError → Prop} {V : α → Prop}

theorem modify_does (actions : List Action) (h : ∀ action ∈ actions, Q action) :
    Does (Appends Q) E (fun _ => True) (modify fun log => log ++ actions : StreamTask PUnit) :=
  .modify fun _ => ⟨actions, rfl, h⟩

theorem perform_does (action : Action) (h : Q action) :
    Does (Appends Q) E (fun _ => True) (perform action) :=
  modify_does [action] fun other hmem => by rw [List.mem_singleton.mp hmem]; exact h

theorem lift_does {ε : Type} {wrap : ε → StreamError} {o : Outcome ε α}
    (hok : ∀ a, o = .ok a → V a) (herr : ∀ e, E (wrap e)) :
    Does (Appends Q) E V (lift wrap o) := by
  cases o with
  | ok a => exact .pure (appends_chains Q) (hok a rfl)
  | err e => exact .bail (appends_chains Q) (herr e)
  | panic => exact .panic (appends_chains Q)

theorem throttle_does (limiter : Option Handle) (amount : Nat)
    (h : ∀ handle, limiter = some handle → Q (.acquire handle amount)) :
    Does (Appends Q) E (fun _ => True) (throttle limiter amount) := by
  cases limiter with
  | none => exact .pure (appends_chains Q) trivial
  | some handle => exact perform_does _ (h handle rfl)

variable (hp : Permits ctx userId Q E)

include hp

theorem writeRemote_does (data : List UInt8) (write : Delivery) :
    Does (Appends Q) E (fun _ => True) (writeRemote data write) := by
  have hR := appends_chains Q
  have hwrite (sent : Nat) : Q (.writeRemote data sent) := hp.action trivial nofun
  cases write with
  | done => exact perform_does _ (hwrite _)
  | failed sent reason =>
      exact .bind hR (perform_does _ (hwrite sent)) fun _ _ => .bail hR (hp.error trivial nofun)
  | timedOut sent =>
      exact .bind hR (perform_does _ (hwrite sent)) fun _ _ => .bail hR (hp.error trivial nofun)

theorem writeClient_does (data : List UInt8) (write : Delivery) :
    Does (Appends Q) E (fun _ => True) (writeClient data write) := by
  have hR := appends_chains Q
  have hwrite (sent : Nat) : Q (.writeClient data sent) := hp.action trivial nofun
  cases write with
  | done => exact perform_does _ (hwrite _)
  | failed sent reason =>
      exact .bind hR (perform_does _ (hwrite sent)) fun _ _ => .bail hR (hp.error trivial nofun)
  | timedOut sent =>
      exact .bind hR (perform_does _ (hwrite sent)) fun _ _ => .bail hR (hp.error trivial nofun)

/-! ### The turns -/

theorem lookupCounters_does :
    Does (Appends Q) E (fun counters => counters? ctx userId = some counters)
      (lookupCounters ctx userId) := by
  have hR := appends_chains Q
  rw [lookupCounters, counters?]
  cases hown : ctx.tables.countersByUser[userId]? with
  | some counters => exact .pure hR rfl
  | none =>
      cases hport : ctx.tables.countersByUser[ctx.fallbackUserId]? with
      | some counters => exact .pure hR rfl
      | none =>
          refine .bail hR (hp.error ?_ nofun)
          rw [FailsFor, counters?, hown, hport]
          rfl

theorem acquireSlot_does (world : World) :
    Does (Appends Q) E (fun _ => True)
      (acquireSlot ctx world userId ctx.tables.policies[userId]?) := by
  have hR := appends_chains Q
  cases hpolicy : ctx.tables.policies[userId]? with
  | none => exact .pure hR trivial
  | some policy =>
      have hlisted : userId ∈ ctx.tables.policies := by
        rw [← Std.HashMap.isSome_getElem?_iff_mem, hpolicy]
        rfl
      rw [acquireSlot]
      by_cases hlimit : ctx.enforcement.connLimit ∧ 0 < policy.connLimit
      · rw [if_pos hlimit]
        cases hset : ctx.tables.connsByUser[userId]? with
        | none => exact .bail hR (hp.error ⟨hset, hlisted⟩ (by rintro ⟨⟩))
        | some set =>
            dsimp only
            cases ConnGuard.acquire (world.ips set) ctx.peerIp policy.connLimit with
            | none => exact .pure hR trivial
            | some guard =>
                exact .bind hR
                  (perform_does (.takeSlot set ctx.peerIp) (hp.action hset (by rintro _ _ ⟨⟩)))
                  fun _ _ => .pure hR trivial
      · rw [if_neg hlimit]
        exact .pure hR trivial

theorem auditInitial_does (world : World) (initial : List UInt8) :
    Does (Appends Q) E (fun _ => True) (auditInitial ctx world userId initial) := by
  have hR := appends_chains Q
  apply Does.bind hR (perform_does (.emit _) (hp.action trivial nofun))
  intro _ _
  apply Does.bind hR (perform_does (.scan world.rules initial) (hp.action trivial nofun))
  intro _ _
  apply Does.bind hR
  · apply modify_does
    intro action hmem
    obtain ⟨event, -, rfl⟩ := List.mem_map.mp hmem
    exact hp.action trivial nofun
  · intro _ _
    exact .pure hR trivial

/-- Behind the header, the lookups are made for the user that the session has by then. -/
theorem authenticated_does (world : World) (session : ServerSession)
    (target : Address) (initial : List UInt8) (preAuthUpload : Nat)
    (huser : session.userId.getD ctx.fallbackUserId = userId) :
    Does (Appends Q) E
      (fun phase => phase = .closed (.ok ()) ∨ ∃ served, ServedFor ctx userId served ∧
        phase = .connecting session served target initial)
      (authenticated ctx world session target initial preAuthUpload) := by
  subst huser
  have hR := appends_chains Q
  rw [authenticated]
  dsimp only
  apply Does.bind hR (lookupCounters_does hp)
  intro counters hcounters
  apply Does.bind hR
    (perform_does (.recordUpload counters preAuthUpload) (hp.action hcounters (by rintro _ _ ⟨⟩)))
  intro _ _
  apply Does.bind hR (acquireSlot_does hp world)
  intro admitted _
  cases admitted with
  | false => exact .pure hR (Or.inl rfl)
  | true =>
      apply Does.bind hR (auditInitial_does hp world initial)
      intro matched _
      split
      · exact .bail hR (hp.error trivial (by rintro ⟨⟩))
      · refine .pure hR (Or.inr ⟨_, ⟨hcounters, ?_⟩, rfl⟩)
        intro limiter hlimiter
        split at hlimiter
        · exact hlimiter
        · cases hlimiter

theorem connectTurn_does (session : ServerSession) (served : Served) (target : Address)
    (initial : List UInt8) (hacquire : ∀ limiter, served.limiter = some limiter →
      Q (.acquire limiter initial.length)) (net : Network) (failure : Option (Nat × String)) :
    Does (Appends Q) E (fun phase => phase = .relay session served)
      (connectTurn ctx session served target initial net failure) := by
  have hR := appends_chains Q
  have htarget (e : TargetError) : E (.target e) := hp.error trivial (by rintro ⟨⟩)
  rw [connectTurn]
  apply Does.bind hR
  · apply modify_does
    intro action hmem
    obtain ⟨contact, -, rfl⟩ := List.mem_map.mp hmem
    exact hp.action trivial (by rintro _ _ ⟨⟩)
  intro _ _
  apply Does.bind hR (V := fun _ => True) (lift_does (fun _ _ => trivial) htarget)
  intro _ _
  split
  · exact .pure hR rfl
  · apply Does.bind hR (throttle_does served.limiter _ hacquire)
    intro _ _
    apply Does.bind hR (writeRemote_does hp initial _)
    intro _ _
    exact .pure hR rfl

theorem clientTurn_does {served : Served} (hserved : ServedFor ctx userId served)
    (session : ServerSession) (chunk : List UInt8)
    (hacquire : ∀ limiter data, served.limiter = some limiter →
      ((ServerSession.decrypt P chunk).run session).1 = .ok data →
      Q (.acquire limiter data.length)) (write : Delivery) :
    Does (Appends Q) E
      (fun phase => phase = .closed (.ok ()) ∨
        phase = .relay ((ServerSession.decrypt P chunk).run session).2 served)
      (clientTurn P session served chunk write) := by
  have hR := appends_chains Q
  have hcodec (e : CodecError) : E (.codec e) := hp.error trivial (by rintro ⟨⟩)
  rw [clientTurn]
  dsimp only
  split
  · exact .pure hR (Or.inl rfl)
  apply Does.bind hR (perform_does (.read chunk) (hp.action trivial (by rintro _ _ ⟨⟩)))
  intro _ _
  apply Does.bind hR (perform_does (.recordUpload _ chunk.length)
    (hp.action hserved.counters_eq (by rintro _ _ ⟨⟩)))
  intro _ _
  apply Does.bind hR (lift_does (fun _ h => h) hcodec)
  intro data hdata
  split
  · exact .pure hR (Or.inr rfl)
  apply Does.bind hR (throttle_does served.limiter _ fun limiter h => hacquire limiter data h hdata)
  intro _ _
  apply Does.bind hR (writeRemote_does hp data write)
  intro _ _
  exact .pure hR (Or.inr rfl)

theorem remoteTurn_does {served : Served} (hserved : ServedFor ctx userId served)
    (session : ServerSession) (chunk : List UInt8)
    (hacquire : ∀ limiter wire, served.limiter = some limiter → chunk ≠ [] →
      ((ServerSession.encrypt P chunk).run session).1 = .ok wire →
      Q (.acquire limiter wire.length)) (write : Delivery) :
    Does (Appends Q) E
      (fun phase => phase = .closed (.ok ()) ∨
        phase = .relay ((ServerSession.encrypt P chunk).run session).2 served)
      (remoteTurn P session served chunk write) := by
  have hR := appends_chains Q
  have hcodec (e : CodecError) : E (.codec e) := hp.error trivial (by rintro ⟨⟩)
  rw [remoteTurn]
  dsimp only
  by_cases hchunk : chunk = []
  · rw [if_pos hchunk]
    exact .pure hR (Or.inl rfl)
  rw [if_neg hchunk]
  apply Does.bind hR (lift_does (fun _ h => h) hcodec)
  intro wire hwire
  apply Does.bind hR (perform_does (.recordDownload _ wire.length)
    (hp.action hserved.counters_eq (by rintro _ _ ⟨⟩)))
  intro _ _
  apply Does.bind hR
    (throttle_does served.limiter _ fun limiter h => hacquire limiter wire h hchunk hwire)
  intro _ _
  apply Does.bind hR (writeClient_does hp wire write)
  intro _ _
  exact .pure hR (Or.inr rfl)

end Tasks

/-! ### The runs -/

/-- The user of the codec once an event has been handled. Bytes that it rejects identify nobody. -/
def codecUser (P : Primitives) : StreamPhase → StreamEvent → Option Nat
  | .handshake h, .clientRead chunk _ _ =>
      match (ServerSession.decrypt P chunk).run h.session with
      | (.ok _, session) => session.userId
      | _ => none
  | .handshake h, _ => h.session.userId
  | .connecting session _ _ _, _ => session.userId
  | .relay session _, _ => session.userId
  | .closed _, _ => none

/-- The session of the codec once an event has been handled. Bytes that it rejects leave none. -/
def codecSession (P : Primitives) : StreamPhase → StreamEvent → Option ServerSession
  | .handshake h, .clientRead chunk _ _ =>
      match (ServerSession.decrypt P chunk).run h.session with
      | (.ok _, session) => some session
      | _ => none
  | .handshake h, _ => some h.session
  | .connecting session _ _ _, _ => some session
  | .relay session _, _ => some session
  | .closed _, _ => none

theorem codecUser_eq (phase : StreamPhase) (event : StreamEvent) :
    codecUser P phase event = (codecSession P phase event).bind ServerSession.userId := by
  cases phase with
  | handshake h =>
      cases event with
      | clientRead chunk world write =>
          rw [codecUser, codecSession]
          generalize (ServerSession.decrypt P chunk).run h.session = call
          obtain ⟨o, session⟩ := call
          cases o <;> rfl
      | _ => rfl
  | connecting session served target initial => cases event <;> rfl
  | relay session served => cases event <;> rfl
  | closed result => cases event <;> rfl

/-- The connection is served for the user that its session reports. -/
structure Bound (ctx : StreamContext) (log : List Action) (session : ServerSession)
    (served : Served) : Prop where
  identified : session.Identified
  served : ServedFor ctx (session.userId.getD ctx.fallbackUserId) served
  acts : ∀ action ∈ log, ActsFor ctx (session.userId.getD ctx.fallbackUserId) action

/-- Before the header is complete no shared object is used, and from then on those of one user. -/
def ServesOne (ctx : StreamContext) (c : Connection) : Prop :=
  match c.phase with
  | .handshake _ => ∀ u, ∀ action ∈ c.log, ActsFor ctx u action
  | .connecting session served _ _ => Bound ctx c.log session served
  | .relay session served => Bound ctx c.log session served
  | .closed _ => True

/-- What a step does under the user that the codec has by then. -/
structure StepsFor (ctx : StreamContext) (userId : Nat) (c : Connection) : Prop where
  acts : ∀ action ∈ c.log, ActsFor ctx userId action
  fails : ∀ e, c.phase = .closed (.err e) → FailsFor ctx userId e

/-- A turn from its rule: what it adds to the log, and the phase it ends in. -/
theorem settle_within {Q : Action → Prop} {E : StreamError → Prop} {V : StreamPhase → Prop}
    {task : StreamTask StreamPhase} (h : Does (Appends Q) E V task) {log : List Action}
    (hlog : ∀ action ∈ log, Q action) :
    (∀ action ∈ (settle (task.run log)).log, Q action) ∧
      (V (settle (task.run log)).phase ∨
        (∃ e, E e ∧ (settle (task.run log)).phase = .closed (.err e)) ∨
        (settle (task.run log)).phase = .closed .panic) := by
  have hacts := (h.state log).all hlog
  have hvalue := h.value log
  have herror := h.error log
  generalize task.run log = r at hacts hvalue herror ⊢
  obtain ⟨o, log'⟩ := r
  cases o with
  | ok phase => exact ⟨hacts, Or.inl (hvalue phase rfl)⟩
  | err e => exact ⟨hacts, Or.inr (Or.inl ⟨e, herror e rfl, rfl⟩)⟩
  | panic => exact ⟨hacts, Or.inr (Or.inr rfl)⟩

/-- A turn that does its part for a user. -/
theorem settle_does {userId : Nat} {task : StreamTask StreamPhase} {V : StreamPhase → Prop}
    (h : Does (Appends (ActsFor ctx userId)) (FailsFor ctx userId) V task) {log : List Action}
    (hlog : ∀ action ∈ log, ActsFor ctx userId action)
    (hV : ∀ phase, V phase → ∀ e, phase ≠ .closed (.err e)) :
    StepsFor ctx userId (settle (task.run log)) ∧
      ((∃ phase, V phase ∧ (settle (task.run log)).phase = phase) ∨
        ∃ result, (settle (task.run log)).phase = .closed result) := by
  obtain ⟨hacts, hphase | ⟨e, he, hphase⟩ | hphase⟩ := settle_within h hlog
  · exact ⟨⟨hacts, fun e he => absurd he (hV _ hphase e)⟩, Or.inl ⟨_, hphase, rfl⟩⟩
  · refine ⟨⟨hacts, ?_⟩, Or.inr ⟨_, hphase⟩⟩
    intro e' he'
    rw [hphase] at he'
    cases he'
    exact he
  · refine ⟨⟨hacts, ?_⟩, Or.inr ⟨_, hphase⟩⟩
    intro e he
    rw [hphase] at he
    cases he

/-- A turn of the handshake ends with the lookups, or before anything but the read is done. -/
theorem handshakeTurn_cases (ctx : StreamContext) (h : Handshake) {chunk : List UInt8}
    (hchunk : chunk ≠ []) (world : World) (log : List Action) :
    (∃ o, (handshakeTurn P ctx h chunk world).run log = (o, log ++ [.read chunk]) ∧
      ((∃ h', o = .ok (.handshake h') ∧
          h'.session = ((ServerSession.decrypt P chunk).run h.session).2) ∨ o = .panic ∨
        ∃ e, o = .err e ∧ e ≠ .handshakeTooLong ∧ ∀ u, FailsFor ctx u e)) ∨
    ∃ out target initial upload, ((ServerSession.decrypt P chunk).run h.session).1 = .ok out ∧
      out ≠ [] ∧ initial.length ≤ h.appBuf.length + out.length ∧ (handshakeTurn P ctx h chunk world).run log =
        (authenticated ctx world ((ServerSession.decrypt P chunk).run h.session).2 target initial
          upload).run (log ++ [.read chunk]) := by
  rw [handshakeTurn, if_neg hchunk]
  simp only [perform, run_modify_bind]
  generalize (ServerSession.decrypt P chunk).run h.session = call
  obtain ⟨o, session⟩ := call
  cases o with
  | err e => exact Or.inl ⟨_, rfl, Or.inr (Or.inr ⟨_, rfl, by rintro ⟨⟩, fun _ => trivial⟩)⟩
  | panic => exact Or.inl ⟨_, rfl, Or.inr (Or.inl rfl)⟩
  | ok out =>
      simp only [lift, pure_bind]
      by_cases hnone : out = []
      · rw [if_pos hnone]
        exact Or.inl ⟨_, rfl, Or.inl ⟨_, rfl, rfl⟩⟩
      · rw [if_neg hnone]
        cases hparse : parse (h.appBuf ++ out) with
        | err e => exact Or.inl ⟨_, rfl, Or.inr (Or.inr ⟨_, rfl, by rintro ⟨⟩, fun _ => trivial⟩)⟩
        | panic => exact absurd hparse (parse_ne_panic _)
        | ok parsed =>
            cases parsed with
            | none =>
                simp only [pure_bind]
                have hshort := parse_none_length hparse
                rw [if_neg (show ¬ maxHandshakeBytes < (h.appBuf ++ out).length by
                  unfold maxHandshakeBytes; omega)]
                exact Or.inl ⟨_, rfl, Or.inl ⟨_, rfl, rfl⟩⟩
            | some found =>
                simp only [pure_bind, slice_of_le (parse_le hparse) (Nat.le_refl _)]
                refine Or.inr ⟨out, found.1, _, _, rfl, hnone, ?_, rfl⟩
                rw [length_window, Nat.min_self, List.length_append]
                omega

/-- A session that has given out application bytes knows its client. -/
theorem identified_next {session : ServerSession} {taken chunk out : List UInt8}
    {r : Drained UInt8 UInt8 Phase} (htook : session.Took P taken r)
    (hok : ((ServerSession.decrypt P chunk).run session).1 = .ok out) (hout : out ≠ []) :
    ((ServerSession.decrypt P chunk).run session).2.Identified := by
  have hstep := ServerSession.decrypt_took htook chunk
  cases hd : session.decoded P (taken ++ chunk) with
  | error e =>
      rw [hd, hok] at hstep
      cases hstep.1
  | ok r' =>
      rw [hd] at hstep
      obtain ⟨out', hr', hcall, hnext⟩ := hstep
      rw [hok] at hcall
      cases hcall
      apply hnext.identified
      rw [hr']
      exact fun hnil => hout (List.append_eq_nil_iff.mp hnil).2

theorem handshakeTurn_serves {s : ServerSession} {auditBlock : Bool} {h : Handshake}
    {log : List Action} (hinv : Inv P s auditBlock log (.handshake h))
    (hlog : ∀ u, ∀ action ∈ log, ActsFor ctx u action) (chunk : List UInt8) (world : World) :
    ServesOne ctx (settle ((handshakeTurn P ctx h chunk world).run log)) ∧
      ∀ u, codecUser P (.handshake h) (.clientRead chunk world .done) = some u →
        StepsFor ctx u (settle ((handshakeTurn P ctx h chunk world).run log)) := by
  obtain ⟨r, -, htook, -⟩ := hinv
  by_cases hchunk : chunk = []
  · rw [handshakeTurn, if_pos hchunk]
    exact ⟨trivial, fun u _ => ⟨hlog u, fun e he => by cases he⟩⟩
  have hread : ∀ u, ∀ action ∈ log ++ [.read chunk], ActsFor ctx u action := by
    intro u action hmem
    cases List.mem_append.mp hmem with
    | inl hold => exact hlog u action hold
    | inr hnew =>
        rw [List.mem_singleton.mp hnew]
        exact trivial
  rcases handshakeTurn_cases ctx h hchunk world log with
    ⟨o, hrun, hend⟩ | ⟨out, target, initial, upload, hok, hout, -, hrun⟩
  · rw [hrun]
    rcases hend with ⟨h', rfl, -⟩ | rfl | ⟨e, rfl, -, hfails⟩
    · exact ⟨hread, fun u _ => ⟨hread u, fun e he => by cases he⟩⟩
    · exact ⟨trivial, fun u _ => ⟨hread u, fun e he => by cases he⟩⟩
    · refine ⟨trivial, fun u _ => ⟨hread u, ?_⟩⟩
      intro e' he
      cases he
      exact hfails u
  · rw [hrun]
    have hidentified := identified_next htook hok hout
    rw [codecUser]
    generalize (ServerSession.decrypt P chunk).run h.session = call at hok hidentified ⊢
    obtain ⟨o, session⟩ := call
    cases hok
    have hdoes := authenticated_does (permits_user ctx _) world session target initial upload rfl
    obtain ⟨hsteps, hphase⟩ := settle_does hdoes (hread _) (by
      rintro phase (rfl | ⟨served, -, rfl⟩) e he <;> cases he)
    refine ⟨?_, ?_⟩
    · rw [ServesOne]
      rcases hphase with ⟨phase, rfl | ⟨served, hserved, rfl⟩, hphase⟩ | ⟨result, hphase⟩
      · rw [hphase]
        trivial
      · rw [hphase]
        exact ⟨hidentified, hserved, hsteps.acts⟩
      · rw [hphase]
        trivial
    · intro u hu
      have huser : session.userId = some u := hu
      rw [huser] at hsteps
      exact hsteps

theorem bound_connectTurn {log : List Action} {session : ServerSession} {served : Served}
    (h : Bound ctx log session served) (target : Address) (initial : List UInt8) (net : Network)
    (failure : Option (Nat × String)) :
    let c := settle ((connectTurn ctx session served target initial net failure).run log)
    ServesOne ctx c ∧ StepsFor ctx (session.userId.getD ctx.fallbackUserId) c := by
  have hdoes := connectTurn_does (permits_user ctx _) session served target initial
    h.served.limiter_eq net failure
  obtain ⟨hsteps, hphase⟩ := settle_does hdoes h.acts (by rintro phase rfl e he; cases he)
  refine ⟨?_, hsteps⟩
  rw [ServesOne]
  rcases hphase with ⟨phase, rfl, hphase⟩ | ⟨result, hphase⟩
  · rw [hphase]
    exact ⟨h.identified, h.served, hsteps.acts⟩
  · rw [hphase]
    trivial

/-- The arms of the relay, each with a call that keeps the user of the session. -/
theorem bound_relayTurn {log : List Action} {session session' : ServerSession} {served : Served}
    {task : StreamTask StreamPhase} (h : Bound ctx log session served)
    (hdoes : Does (Appends (ActsFor ctx (session.userId.getD ctx.fallbackUserId)))
      (FailsFor ctx (session.userId.getD ctx.fallbackUserId))
      (fun phase => phase = .closed (.ok ()) ∨ phase = .relay session' served) task)
    (hkeeps : session'.Identified ∧ session'.userId = session.userId) :
    ServesOne ctx (settle (task.run log)) ∧
      StepsFor ctx (session.userId.getD ctx.fallbackUserId) (settle (task.run log)) := by
  obtain ⟨hsteps, hphase⟩ := settle_does hdoes h.acts (by
    rintro phase (rfl | rfl) e he <;> cases he)
  refine ⟨?_, hsteps⟩
  rw [ServesOne]
  rcases hphase with ⟨phase, rfl | rfl, hphase⟩ | ⟨result, hphase⟩
  · rw [hphase]
    trivial
  · rw [hphase]
    refine ⟨hkeeps.1, ?_, ?_⟩
    · rw [hkeeps.2]
      exact h.served
    · rw [hkeeps.2]
      exact hsteps.acts
  · rw [hphase]
    trivial

/-- A step of the handshake. -/
theorem handshake_serves {s : ServerSession} {h : Handshake} {log : List Action}
    (hgood : Good P s ctx.enforcement.auditBlock ⟨.handshake h, log⟩)
    (hlog : ∀ u, ∀ action ∈ log, ActsFor ctx u action) (event : StreamEvent) :
    ServesOne ctx (settle ((turn P ctx (.handshake h) event).run log)) ∧
      ∀ u, codecUser P (.handshake h) event = some u →
        StepsFor ctx u (settle ((turn P ctx (.handshake h) event).run log)) := by
  have hbail (e : StreamError) (he : ∀ u, FailsFor ctx u e) :
      ServesOne ctx (settle (.err e, log)) ∧ ∀ u, StepsFor ctx u (settle (.err e, log)) := by
    refine ⟨trivial, fun u => ⟨hlog u, ?_⟩⟩
    intro e' he'
    cases he'
    exact he u
  have hstay : ServesOne ctx ⟨.handshake h, log⟩ ∧ ∀ u, StepsFor ctx u ⟨.handshake h, log⟩ :=
    ⟨hlog, fun u => ⟨hlog u, fun e he => (nomatch he)⟩⟩
  cases event with
  | clientRead chunk world write => exact handshakeTurn_serves hgood hlog chunk world
  | clientFailed reason =>
      have hfails := hbail (.io reason) fun _ => trivial
      exact ⟨hfails.1, fun u _ => hfails.2 u⟩
  | idle =>
      have hfails := hbail .handshakeIdle fun _ => trivial
      exact ⟨hfails.1, fun u _ => hfails.2 u⟩
  | connected net failure => exact ⟨hstay.1, fun u _ => hstay.2 u⟩
  | remoteRead chunk write => exact ⟨hstay.1, fun u _ => hstay.2 u⟩
  | remoteFailed reason => exact ⟨hstay.1, fun u _ => hstay.2 u⟩

/-- A step while the target is being connected to. -/
theorem Bound.connecting_serves {log : List Action} {session : ServerSession} {served : Served}
    (h : Bound ctx log session served) (target : Address) (initial : List UInt8)
    (event : StreamEvent) :
    let c := settle ((turn P ctx (.connecting session served target initial) event).run log)
    ServesOne ctx c ∧ StepsFor ctx (session.userId.getD ctx.fallbackUserId) c := by
  have hstay : ServesOne ctx ⟨.connecting session served target initial, log⟩ ∧
      StepsFor ctx (session.userId.getD ctx.fallbackUserId)
        ⟨.connecting session served target initial, log⟩ :=
    ⟨h, h.acts, fun e he => (nomatch he)⟩
  cases event with
  | connected net failure => exact bound_connectTurn h target initial net failure
  | clientRead chunk world write => exact hstay
  | clientFailed reason => exact hstay
  | idle => exact hstay
  | remoteRead chunk write => exact hstay
  | remoteFailed reason => exact hstay

/-- A step of the relay loop. -/
theorem Bound.relay_serves {log : List Action} {session : ServerSession} {served : Served}
    (h : Bound ctx log session served) (event : StreamEvent) :
    let c := settle ((turn P ctx (.relay session served) event).run log)
    ServesOne ctx c ∧ StepsFor ctx (session.userId.getD ctx.fallbackUserId) c := by
  have hbail (e : StreamError) (he : ∀ u, FailsFor ctx u e) :
      ServesOne ctx (settle (.err e, log)) ∧
        StepsFor ctx (session.userId.getD ctx.fallbackUserId) (settle (.err e, log)) := by
    refine ⟨trivial, h.acts, ?_⟩
    intro e' he'
    cases he'
    exact he _
  cases event with
  | clientRead chunk world write =>
      exact bound_relayTurn h (clientTurn_does (permits_user ctx _) h.served session chunk
        (fun limiter _ hlimiter _ => h.served.limiter_eq limiter hlimiter) write)
        (ServerSession.decrypt_identified h.identified chunk)
  | remoteRead chunk write =>
      exact bound_relayTurn h (remoteTurn_does (permits_user ctx _) h.served session chunk
        (fun limiter _ hlimiter _ _ => h.served.limiter_eq limiter hlimiter) write)
        (ServerSession.encrypt_identified h.identified chunk)
  | clientFailed reason => exact hbail _ fun _ => trivial
  | remoteFailed reason => exact hbail _ fun _ => trivial
  | idle => exact hbail _ fun _ => trivial
  | connected net failure => exact ⟨h, h.acts, fun e he => (nomatch he)⟩

/-- A step keeps a connection to its user, and acts for the user that the codec has by then. -/
theorem step_serves {s : ServerSession} {c : Connection}
    (hgood : Good P s ctx.enforcement.auditBlock c) (h : ServesOne ctx c) (event : StreamEvent) :
    ServesOne ctx (step P ctx c event) ∧
      ∀ u, codecUser P c.phase event = some u → StepsFor ctx u (step P ctx c event) := by
  obtain ⟨phase, log⟩ := c
  rw [step]
  cases phase with
  | closed result => exact ⟨by cases event <;> trivial, fun u hu => by cases hu⟩
  | handshake hs => exact handshake_serves hgood h event
  | connecting session served target initial =>
      have hbound : Bound ctx log session served := h
      obtain ⟨hserves, hsteps⟩ := hbound.connecting_serves (P := P) target initial event
      refine ⟨hserves, ?_⟩
      intro u hu
      have huser : session.userId = some u := by cases event <;> exact hu
      rw [huser] at hsteps
      exact hsteps
  | relay session served =>
      have hbound : Bound ctx log session served := h
      obtain ⟨hserves, hsteps⟩ := hbound.relay_serves (P := P) event
      refine ⟨hserves, ?_⟩
      intro u hu
      have huser : session.userId = some u := by cases event <;> exact hu
      rw [huser] at hsteps
      exact hsteps

/-- What the codec has taken in by then, and with which settings: all that has been read,
and in the handshake the bytes of the event as well. -/
theorem codecSession_took {s t : ServerSession} {auditBlock : Bool} {c : Connection}
    (hgood : Good P s auditBlock c) {event : StreamEvent}
    (ht : codecSession P c.phase event = some t) :
    t.settings = s.settings ∧ ∃ taken r, t.Took P taken r ∧
      (taken = wire c.log ∨ ∃ h chunk world write, c.phase = .handshake h ∧
        event = .clientRead chunk world write ∧ taken = wire c.log ++ chunk) := by
  obtain ⟨phase, log⟩ := c
  cases phase with
  | closed result => cases ht
  | connecting session served target initial =>
      obtain ⟨hset, ⟨r, htook⟩, -⟩ := hgood
      cases ht
      exact ⟨hset, _, r, htook, Or.inl rfl⟩
  | relay session served =>
      obtain ⟨hset, r, n, target, initial, front, back, htook, -⟩ := hgood
      cases ht
      exact ⟨hset, _, r, htook, Or.inl rfl⟩
  | handshake h =>
      obtain ⟨r, hset, htook, -⟩ := hgood
      have hsame (hsession : h.session = t) : t.settings = s.settings ∧
          ∃ taken r, t.Took P taken r ∧ (taken = wire log ∨
            ∃ h' chunk world write, StreamPhase.handshake h = .handshake h' ∧
              event = .clientRead chunk world write ∧ taken = wire log ++ chunk) := by
        rw [← hsession]
        exact ⟨hset, _, r, htook, Or.inl rfl⟩
      cases event with
      | clientRead chunk world write =>
          have hstep := ServerSession.decrypt_took htook chunk
          have hkeeps := ServerSession.decrypt_settings (P := P) htook.masterKey_length chunk
          rw [codecSession] at ht
          generalize (ServerSession.decrypt P chunk).run h.session = call at ht hstep hkeeps
          obtain ⟨o, session⟩ := call
          cases o with
          | err e => cases ht
          | panic => cases ht
          | ok out =>
              cases ht
              cases hd : h.session.decoded P (wire log ++ chunk) with
              | error e =>
                  rw [hd] at hstep
                  cases hstep.1
              | ok r' =>
                  rw [hd] at hstep
                  obtain ⟨-, -, -, hnext⟩ := hstep
                  exact ⟨hkeeps.trans hset, _, r', hnext,
                    Or.inr ⟨h, chunk, world, write, rfl, rfl, rfl⟩⟩
      | clientFailed reason => exact hsame (Option.some.inj ht)
      | connected net failure => exact hsame (Option.some.inj ht)
      | remoteRead chunk write => exact hsame (Option.some.inj ht)
      | remoteFailed reason => exact hsame (Option.some.inj ht)
      | idle => exact hsame (Option.some.inj ht)

/-- The codec identifies users of its table only. -/
theorem codecUser_listed {s : ServerSession} {auditBlock : Bool} {c : Connection}
    (hgood : Good P s auditBlock c) (event : StreamEvent) {u : Nat}
    (hu : codecUser P c.phase event = some u) : u ∈ s.users := by
  rw [codecUser_eq] at hu
  obtain ⟨t, ht, huser⟩ := Option.bind_eq_some_iff.mp hu
  obtain ⟨hset, taken, r, htook, -⟩ := codecSession_took hgood ht
  have husers : t.users = s.users := congrArg (fun settings => settings.2.2.1) hset
  rw [← husers]
  exact htook.listed huser

theorem run_serves {s : ServerSession} (hs : s.Fresh P) (ctx : StreamContext)
    (events : List StreamEvent) : ServesOne ctx (Machine.run (step P ctx) (start s) events) := by
  have hstep : ∀ c event, Good P s ctx.enforcement.auditBlock c ∧ ServesOne ctx c →
      Good P s ctx.enforcement.auditBlock (step P ctx c event) ∧
        ServesOne ctx (step P ctx c event) :=
    fun c event h => ⟨good_step h.1 event, (step_serves h.1 h.2 event).1⟩
  have hstart : ServesOne ctx (start s) := fun u action hmem => (nomatch hmem)
  exact (Machine.run_keeps hstep ⟨good_start hs _, hstart⟩ events).2

end Connection

end SsrBackend
