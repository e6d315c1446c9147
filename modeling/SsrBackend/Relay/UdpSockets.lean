import SsrBackend.Relay.ForbiddenTargets

/-!
The sockets of the UDP listener. Every client has an outbound socket of its own
while its association lives, and a number is given to no second client: what a
target answers on a socket goes to the one client whose payloads went out of it.
The forwarded payloads of a run are those of the datagrams that the codec and the
checks let pass, in the order of their arrival and each at most once.
-/

namespace SsrBackend

open Call

/-- A payload on its way to a target. -/
structure Forwarded where
  client : AssociationKey
  contact : Contact
  payload : List UInt8

namespace UdpAction

def uploaded? : UdpAction → Option (Handle × Nat)
  | recordUpload counters bytes => some (counters, bytes)
  | _ => none

/-- Neither a datagram that was verified nor one that was sent. -/
def Aside : UdpAction → Prop
  | verified _ _ => False
  | send _ _ _ => False
  | _ => True

end UdpAction

namespace UdpListener

variable {P : Primitives}

/-- The payloads that were forwarded, each with the socket it was sent from. A send belongs to
the datagram that was verified last: the listener handles one after the other. -/
def forwarded : Option AssociationKey → List UdpAction → List (Nat × Forwarded)
  | _, [] => []
  | _, .verified key _ :: log => forwarded (some key) log
  | some key, .send outbound contact payload :: log =>
      (outbound, ⟨key, contact, payload⟩) :: forwarded (some key) log
  | current, _ :: log => forwarded current log

/-- The client of the last datagram. -/
def currentClient (current : Option AssociationKey) (log : List UdpAction) :
    Option AssociationKey :=
  log.foldl (fun current action => match action with
    | .verified key _ => some key
    | _ => current) current

/-- The upload records of a log. -/
def uploads (log : List UdpAction) : List (Handle × Nat) := log.filterMap UdpAction.uploaded?

theorem forwarded_append (current : Option AssociationKey) (xs ys : List UdpAction) :
    forwarded current (xs ++ ys) =
      forwarded current xs ++ forwarded (currentClient current xs) ys := by
  induction xs generalizing current with
  | nil => rfl
  | cons action xs ih =>
      cases action with
      | verified key signWith => exact ih (some key)
      | send outbound contact payload =>
          cases current with
          | none => exact ih none
          | some key => exact congrArg (_ :: ·) (ih (some key))
      | recordUpload counters bytes => cases current <;> exact ih _
      | recordDownload counters bytes => cases current <;> exact ih _
      | emit event => cases current <;> exact ih _
      | scan rules data => cases current <;> exact ih _
      | respond peer userId responseKey packet => cases current <;> exact ih _

theorem forwarded_aside {acts : List UdpAction} (h : ∀ action ∈ acts, action.Aside)
    (current : Option AssociationKey) :
    forwarded current acts = [] ∧ currentClient current acts = current := by
  induction acts with
  | nil => exact ⟨rfl, rfl⟩
  | cons action acts ih =>
      have hrest := ih fun other hmem => h other (List.mem_cons_of_mem action hmem)
      have hfirst := h action List.mem_cons_self
      cases action with
      | verified key signWith => exact hfirst.elim
      | send outbound contact payload => exact hfirst.elim
      | recordUpload counters bytes => cases current <;> exact hrest
      | recordDownload counters bytes => cases current <;> exact hrest
      | emit event => cases current <;> exact hrest
      | scan rules data => cases current <;> exact hrest
      | respond peer userId responseKey packet => cases current <;> exact hrest

@[simp] theorem uploads_append (xs ys : List UdpAction) :
    uploads (xs ++ ys) = uploads xs ++ uploads ys := List.filterMap_append

/-! ### One datagram -/

/-- Where the payload of a verified datagram is to go, as far as its own bytes, the tables and
the resolver decide it. -/
def destination? (ctx : UdpContext) (tables : UserTables) (inbound : Inbound) (userId : Nat)
    (plain : List UInt8) : Option Forwarded :=
  match counters? ctx tables userId, parse plain with
  | some _, .ok (some (target, consumed)) =>
      (udpDestination? target tables.policies[userId]? ctx.enforcement inbound.net).map
        fun contact => ⟨⟨inbound.peer, userId⟩, contact, plain.drop consumed⟩
  | _, _ => none

/-- The sockets before and after a datagram of a client: it finds its own, or gets the next one. -/
def Connects (key : AssociationKey) (s s' : UdpListener) : Prop :=
  (s'.nextSocket = s.nextSocket ∧
    ∀ k v, s'.associations.value? k = some v → s.associations.value? k = some v) ∨
  (s'.nextSocket = s.nextSocket + 1 ∧ ∀ k v, s'.associations.value? k = some v →
    s.associations.value? k = some v ∨
      k = key ∧ v.outbound = s.nextSocket ∧ v.peer = key.peer)

/-- How a verified datagram ends: the payload is sent from the socket that its client has by
then, or it is dropped. -/
def Ends (key : AssociationKey) (dest : Option Forwarded) (o : Outcome UdpError Unit)
    (s' : UdpListener) (sent : List UdpAction) : Prop :=
  (sent = [] ∧ ∃ e, o = .err e) ∨
  (o = .ok () ∧ ∃ outbound contact payload association,
    sent = [.send outbound contact payload] ∧ dest = some ⟨key, contact, payload⟩ ∧
    s'.associations.value? key = some association ∧ association.outbound = outbound)

/-- What a part of `handle_inbound` does once the datagram is verified: some actions aside,
among them the records in `billed`, and then the send. -/
structure Carries (key : AssociationKey) (dest : Option Forwarded)
    (billed : List (Handle × Nat)) (inbound : Inbound) (s : UdpListener)
    (r : Outcome UdpError Unit × UdpListener) : Prop where
  tables_eq : r.2.tables = s.tables
  stopped_eq : r.2.stopped = s.stopped
  connects : Connects key s r.2
  log_eq : ∃ acts sent, r.2.log = s.log ++ acts ++ sent ∧ (∀ action ∈ acts, action.Aside) ∧
    uploads acts = billed ∧ Ends key dest r.1 r.2 sent
  delivers : dest.isSome → inbound.bind = .ok () → inbound.send = .ok () → r.1 = .ok ()

section Inbound

variable (ctx : UdpContext) (tables : UserTables) (inbound : Inbound)

/-- The three ways to an outbound socket. -/
theorem associate_cases (key : AssociationKey) (signWith : List UInt8) (counters : Handle)
    (s : UdpListener) :
    (∃ association, s.associations.value? key = some association ∧
      (associate ctx key signWith counters inbound).run s = (.ok association.outbound,
        { s with associations := (s.associations.touch key inbound.touchAt).2 })) ∨
    (∃ reason, inbound.bind = .error reason ∧
      (associate ctx key signWith counters inbound).run s = (.err (.io reason), { s with
        log := s.log ++ [.emit (.connect key.userId inbound.peerIp inbound.peerText)] })) ∨
    (associate ctx key signWith counters inbound).run s = (.ok s.nextSocket, { s with
      log := s.log ++ [.emit (.connect key.userId inbound.peerIp inbound.peerText)]
      associations := s.associations.insert key ⟨s.nextSocket, ctx.masterKey, signWith, counters,
        inbound.peer, ctx.cipherKind⟩ inbound.insertAt inbound.walk
      nextSocket := s.nextSocket + 1 }) := by
  rw [associate, run_get_bind]
  dsimp only
  rw [BoundedTtlMap.touch_fst]
  cases s.associations.value? key with
  | some association => exact Or.inl ⟨association, rfl, rfl⟩
  | none =>
      cases inbound.bind with
      | error reason => exact Or.inr (Or.inl ⟨reason, rfl, rfl⟩)
      | ok _ => exact Or.inr (Or.inr rfl)

theorem Connects.refl (key : AssociationKey) (s : UdpListener) : Connects key s s :=
  Or.inl ⟨rfl, fun _ _ h => h⟩

/-- A datagram that is dropped before it gets a socket. -/
theorem Carries.dropped {key : AssociationKey} {dest : Option Forwarded}
    {billed : List (Handle × Nat)} {s : UdpListener} {acts : List UdpAction} {e : UdpError}
    (haside : ∀ action ∈ acts, action.Aside) (hbilled : uploads acts = billed)
    (hdest : dest = none) :
    Carries key dest billed inbound s (.err e, { s with log := s.log ++ acts }) where
  tables_eq := rfl
  stopped_eq := rfl
  connects := Connects.refl key s
  log_eq := ⟨acts, [], (List.append_nil _).symm, haside, hbilled, Or.inl ⟨rfl, e, rfl⟩⟩
  delivers h := by
    rw [hdest] at h
    cases h

theorem Carries.refused (key : AssociationKey) (s : UdpListener) (e : UdpError) :
    Carries key none [] inbound s (.err e, s) := by
  have hdropped : Carries key none [] inbound s (.err e, { s with log := s.log ++ [] }) :=
    Carries.dropped inbound (List.forall_mem_nil _) rfl rfl
  rw [List.append_nil] at hdropped
  exact hdropped

/-- The part from the socket to the send. -/
theorem associate_carries {key : AssociationKey} (hpeer : inbound.peer = key.peer)
    (signWith : List UInt8) (counters : Handle) (contact : Contact) (payload : List UInt8)
    (s : UdpListener) :
    Carries key (some ⟨key, contact, payload⟩) [] inbound s
      ((associate ctx key signWith counters inbound >>= fun outbound =>
        match inbound.send with
        | .error reason => bail (.io reason)
        | .ok () => perform (.send outbound contact payload)).run s) := by
  rw [run_bind]
  rcases associate_cases ctx inbound key signWith counters s with
    ⟨association, hfound, hrun⟩ | ⟨reason, hbind, hrun⟩ | hrun
  · rw [hrun]
    have hkeeps : ∀ k v, (s.associations.touch key inbound.touchAt).2.value? k = some v →
        s.associations.value? k = some v := by
      intro k v hv
      rw [BoundedTtlMap.value?_touch] at hv
      exact hv
    cases hsend : inbound.send with
    | error reason =>
        refine ⟨rfl, rfl, Or.inl ⟨rfl, hkeeps⟩, ⟨[], [], ?_, List.forall_mem_nil _, rfl,
          Or.inl ⟨rfl, _, rfl⟩⟩, ?_⟩
        · simp
        · intro _ _ hok
          rw [hsend] at hok
          cases hok
    | ok _ =>
        refine ⟨rfl, rfl, Or.inl ⟨rfl, hkeeps⟩, ⟨[], [_], ?_, List.forall_mem_nil _, rfl, Or.inr ⟨rfl, _, _, _,
          association, rfl, rfl, ?_, rfl⟩⟩, fun _ _ _ => rfl⟩
        · rw [List.append_nil]
          rfl
        · exact (BoundedTtlMap.value?_touch _ key key inbound.touchAt).trans hfound
  · rw [hrun]
    refine ⟨rfl, rfl, Connects.refl key _, ⟨[_], [], (List.append_nil _).symm, ?_, rfl,
      Or.inl ⟨rfl, _, rfl⟩⟩, ?_⟩
    · intro action hmem
      rw [List.mem_singleton.mp hmem]
      trivial
    · intro _ hok _
      rw [hbind] at hok
      cases hok
  · rw [hrun]
    have haside : ∀ action ∈ [UdpAction.emit (.connect key.userId inbound.peerIp
        inbound.peerText)], action.Aside := by
      intro action hmem
      rw [List.mem_singleton.mp hmem]
      trivial
    have hinserted (s' : UdpListener) (hnext : s'.nextSocket = s.nextSocket + 1)
        (hmap : s'.associations = s.associations.insert key ⟨s.nextSocket, ctx.masterKey, signWith,
          counters, inbound.peer, ctx.cipherKind⟩ inbound.insertAt inbound.walk) :
        Connects key s s' := by
      refine Or.inr ⟨hnext, ?_⟩
      intro k v hv
      rw [hmap] at hv
      rcases BoundedTtlMap.value?_insert hv with ⟨hk, rfl⟩ | ⟨-, hkept⟩
      · exact Or.inr ⟨hk, rfl, hpeer⟩
      · exact Or.inl hkept
    cases hsend : inbound.send with
    | error reason =>
        refine ⟨rfl, rfl, hinserted _ rfl rfl, ⟨[_], [], (List.append_nil _).symm, haside, rfl,
          Or.inl ⟨rfl, _, rfl⟩⟩, ?_⟩
        intro _ _ hok
        rw [hsend] at hok
        cases hok
    | ok _ =>
        refine ⟨rfl, rfl, hinserted _ rfl rfl, ⟨[_], [_], rfl, haside, rfl, Or.inr ⟨rfl, _, _, _,
          ⟨s.nextSocket, ctx.masterKey, signWith, counters, inbound.peer, ctx.cipherKind⟩, rfl, rfl,
          ?_, rfl⟩⟩, fun _ _ _ => rfl⟩
        exact congrArg (Option.map Entry.value) (BoundedTtlMap.insert_self ..)

/-- Actions aside that come before a part. -/
theorem Carries.after {key : AssociationKey} {dest : Option Forwarded}
    {billed : List (Handle × Nat)} {s : UdpListener} {acts : List UdpAction}
    {r : Outcome UdpError Unit × UdpListener} (haside : ∀ action ∈ acts, action.Aside)
    (h : Carries key dest billed inbound { s with log := s.log ++ acts } r) :
    Carries key dest (uploads acts ++ billed) inbound s r := by
  refine ⟨h.tables_eq, h.stopped_eq, h.connects, ?_, h.delivers⟩
  obtain ⟨more, sent, hlog, hmore, hbilled, hends⟩ := h.log_eq
  refine ⟨acts ++ more, sent, ?_, ?_, ?_, hends⟩
  · rw [hlog, ← List.append_assoc s.log]
  · intro action hmem
    exact (List.mem_append.mp hmem).elim (haside action) (hmore action)
  · rw [uploads_append, hbilled]

theorem uploads_emits (events : List RelayEvent) : uploads (events.map UdpAction.emit) = [] := by
  rw [uploads, List.filterMap_map]
  exact List.filterMap_eq_nil_iff.mpr fun _ _ => rfl

theorem forward_carries {userId : Nat} (signWith : List UInt8) (counters : Handle)
    (target : Address) (payload : List UInt8) (s : UdpListener) :
    Carries ⟨inbound.peer, userId⟩
      ((udpDestination? target tables.policies[userId]? ctx.enforcement inbound.net).map
        fun contact => ⟨⟨inbound.peer, userId⟩, contact, payload⟩) [] inbound s
      ((forward ctx tables userId signWith counters target payload inbound).run s) := by
  rw [forward, udpDestination?]
  dsimp only
  cases portCheck tables.policies[userId]? ctx.enforcement target.port with
  | true =>
      exact Carries.refused inbound _ s (.portForbidden target.port userId)
  | false =>
      simp only [Bool.false_eq_true, if_false, perform, run_modify_bind]
      generalize hhits : (scanPayload inbound.rules userId inbound.peerIp payload).2 = hits
      have haside : ∀ action ∈ [UdpAction.scan inbound.rules payload] ++ hits.map UdpAction.emit,
          action.Aside := by
        intro action hmem
        cases List.mem_append.mp hmem with
        | inl hscan =>
            rw [List.mem_singleton.mp hscan]
            trivial
        | inr hemit =>
            obtain ⟨event, -, rfl⟩ := List.mem_map.mp hemit
            trivial
      have hnone : uploads ([.scan inbound.rules payload] ++ hits.map UdpAction.emit) = [] := by
        rw [uploads_append, uploads_emits]
        rfl
      rw [List.append_assoc]
      have hfront : ([] : List (Handle × Nat)) =
          uploads ([.scan inbound.rules payload] ++ hits.map UdpAction.emit) ++ [] := by
        rw [hnone]
        rfl
      rw [hfront]
      apply Carries.after inbound haside
      cases hresolve : resolveUdpDest target tables.policies[userId]? ctx.enforcement inbound.net with
      | panic => exact absurd hresolve (resolveUdpDest_ne_panic _ _ _ _)
      | err e =>
          exact Carries.refused inbound _ _ (.target e)
      | ok contact =>
          have hpeer : inbound.peer = (AssociationKey.mk inbound.peer userId).peer := rfl
          exact associate_carries ctx inbound hpeer signWith counters contact payload _

theorem deliver_carries {userId : Nat} (signWith plain : List UInt8) (s : UdpListener) :
    Carries ⟨inbound.peer, userId⟩ (destination? ctx tables inbound userId plain)
      ((counters? ctx tables userId).toList.map fun counters => (counters, inbound.datagram.length))
      inbound s ((deliver ctx tables userId signWith plain inbound).run s) := by
  rw [deliver, destination?]
  have hlookup : lookupCounters ctx tables userId =
      (counters? ctx tables userId).elim (bail (.noCounter userId)) pure := by
    rw [lookupCounters, counters?]
    cases tables.countersByUser[userId]? with
    | some counters => rfl
    | none =>
        cases tables.countersByUser[ctx.userId]? with
        | some counters => rfl
        | none => rfl
  rw [hlookup]
  cases counters? ctx tables userId with
  | none =>
      exact Carries.refused inbound _ s (.noCounter userId)
  | some counters =>
      simp only [Option.elim_some, pure_bind, perform, run_modify_bind]
      have haside : ∀ action ∈ [UdpAction.recordUpload counters inbound.datagram.length],
          action.Aside := by
        intro action hmem
        rw [List.mem_singleton.mp hmem]
        trivial
      cases hparse : parse plain with
      | panic => exact absurd hparse (parse_ne_panic _)
      | err e => exact Carries.dropped inbound haside rfl rfl
      | ok parsed =>
          cases parsed with
          | none => exact Carries.dropped inbound haside rfl rfl
          | some found =>
              have hslice : (slice plain found.2 plain.length : UdpTask (List UInt8)) =
                  pure (plain.drop found.2) := by
                rw [slice_of_le (parse_le hparse) (Nat.le_refl _), window, List.take_length]
              simp only [ofOutcome, pure_bind, hslice]
              exact Carries.after inbound haside
                (forward_carries ctx tables inbound signWith counters found.1 _ _)

end Inbound

/-! ### One step -/

/-- What the codec makes of a datagram. -/
def opened? (P : Primitives) (ctx : UdpContext) (tables : UserTables) (inbound : Inbound) :
    Option (List UInt8 × Option Nat) :=
  match udpDecryptPacket P ctx.masterKey tables.authUsers ctx.isMultiUser inbound.datagram
      ctx.cipherKind with
  | .ok verified => some verified
  | _ => none

/-- Where a datagram that arrives under some tables is to go. -/
def relayed? (P : Primitives) (ctx : UdpContext) (received : UserTables × Inbound) :
    Option Forwarded :=
  (opened? P ctx received.1 received.2).bind fun verified =>
    destination? ctx received.1 received.2 (verified.2.getD ctx.userId) verified.1

/-- What is recorded for a datagram: its whole length, on the counter of its user. -/
def billed (P : Primitives) (ctx : UdpContext) (received : UserTables × Inbound) :
    List (Handle × Nat) :=
  ((opened? P ctx received.1 received.2).bind fun verified =>
    counters? ctx received.1 (verified.2.getD ctx.userId)).toList.map
      fun counters => (counters, received.2.datagram.length)

/-- The step of a datagram: what it adds to the log, and the sockets behind it. -/
structure Receives (P : Primitives) (ctx : UdpContext) (inbound : Inbound) (s s' : UdpListener) :
    Prop where
  tables_eq : s'.tables = s.tables
  stopped_eq : ctx.cipherKind.Takes ctx.masterKey → s'.stopped = s.stopped
  log_eq : ∃ acts, s'.log = s.log ++ acts ∧ uploads acts = billed P ctx (s.tables, inbound) ∧
    ∀ current, (forwarded current acts = [] ∧ ((relayed? P ctx (s.tables, inbound)).isSome →
        inbound.bind = .ok () → inbound.send ≠ .ok ())) ∨
      ∃ outbound f, forwarded current acts = [(outbound, f)] ∧
        relayed? P ctx (s.tables, inbound) = some f ∧
        ∃ association, s'.associations.value? f.client = some association ∧
          association.outbound = outbound
  connects : ∃ key, Connects key s s'

variable {ctx : UdpContext} {s : UdpListener} {inbound : Inbound}

/-- A datagram that the codec refuses. -/
theorem handleInbound_refused (hopened : opened? P ctx s.tables inbound = none) :
    ((handleInbound P ctx s.tables inbound).run s).2 = s ∧
      (ctx.cipherKind.Takes ctx.masterKey →
        ((handleInbound P ctx s.tables inbound).run s).1 ≠ .panic) := by
  rw [opened?] at hopened
  rw [handleInbound]
  cases hdecrypt : udpDecryptPacket P ctx.masterKey s.tables.authUsers ctx.isMultiUser
      inbound.datagram ctx.cipherKind with
  | ok verified =>
      rw [hdecrypt] at hopened
      cases hopened
  | err e => exact ⟨rfl, by rintro - ⟨⟩⟩
  | panic =>
      exact ⟨rfl, fun hkey => absurd hdecrypt (udpDecryptPacket_ne_panic P _ _ _ hkey)⟩

theorem handleInbound_opened {verified : List UInt8 × Option Nat}
    (hopened : opened? P ctx s.tables inbound = some verified) (s₁ : UdpListener) :
    ∃ signWith, Carries ⟨inbound.peer, verified.2.getD ctx.userId⟩
      (relayed? P ctx (s.tables, inbound)) (billed P ctx (s.tables, inbound)) inbound
      { s₁ with log := s₁.log ++ [.verified ⟨inbound.peer, verified.2.getD ctx.userId⟩ signWith] }
      ((handleInbound P ctx s.tables inbound).run s₁) := by
  have hdecrypt : udpDecryptPacket P ctx.masterKey s.tables.authUsers ctx.isMultiUser
      inbound.datagram ctx.cipherKind = .ok verified := by
    rw [opened?] at hopened
    split at hopened
    · rename_i heq
      rw [heq, Option.some.inj hopened]
    · cases hopened
  refine ⟨responseKey ctx s.tables verified.2, ?_⟩
  rw [handleInbound_run ctx s.tables inbound hdecrypt, relayed?, billed, hopened, Option.bind_some,
    Option.bind_some]
  exact deliver_carries ctx s.tables inbound _ verified.1 _

theorem Connects.expired {key : AssociationKey} {expireAt : Nat} (log : List UdpAction)
    {s' : UdpListener} (h : Connects key { s with
      associations := s.associations.expire expireAt, log := log } s') : Connects key s s' := by
  rcases h with ⟨hnext, hkeeps⟩ | ⟨hnext, hkeeps⟩
  · refine Or.inl ⟨hnext, ?_⟩
    intro k v hv
    exact BoundedTtlMap.value?_evictExpired (hkeeps k v hv)
  · refine Or.inr ⟨hnext, ?_⟩
    intro k v hv
    exact (hkeeps k v hv).imp BoundedTtlMap.value?_evictExpired id

theorem Connects.close {key : AssociationKey} {s' : UdpListener} (h : Connects key s s') :
    Connects key s s'.close := by
  rcases h with ⟨hnext, hkeeps⟩ | ⟨hnext, hkeeps⟩
  · exact Or.inl ⟨hnext, fun k v hv => hkeeps k v (BoundedTtlMap.value?_retain hv)⟩
  · exact Or.inr ⟨hnext, fun k v hv => hkeeps k v (BoundedTtlMap.value?_retain hv)⟩

/-- A datagram that the codec refuses leaves only the expired associations behind. -/
theorem receives_refused (hopened : opened? P ctx s.tables inbound = none) {s' : UdpListener}
    (htables : s'.tables = s.tables)
    (hstopped : ctx.cipherKind.Takes ctx.masterKey → s'.stopped = s.stopped)
    (hlog : s'.log = s.log) (hconnects : ∃ key, Connects key s s') :
    Receives P ctx inbound s s' := by
  refine ⟨htables, hstopped, ⟨[], by rw [hlog, List.append_nil], ?_, ?_⟩, hconnects⟩
  · rw [billed, hopened]
    rfl
  · intro current
    refine Or.inl ⟨by cases current <;> rfl, ?_⟩
    intro hsome
    rw [relayed?, hopened] at hsome
    cases hsome

/-- A datagram that the codec accepts. -/
theorem receives_opened {key : AssociationKey} {signWith : List UInt8} {s' : UdpListener}
    {o : Outcome UdpError Unit} (hcarries : Carries key (relayed? P ctx (s.tables, inbound))
      (billed P ctx (s.tables, inbound)) inbound { s with
        associations := s.associations.expire inbound.expireAt
        log := s.log ++ [.verified key signWith] } (o, s')) : Receives P ctx inbound s s' := by
  obtain ⟨acts, sent, hlog, haside, hbilled, hends⟩ := hcarries.log_eq
  refine ⟨hcarries.tables_eq, fun _ => hcarries.stopped_eq,
    ⟨[.verified key signWith] ++ acts ++ sent, ?_, ?_, ?_⟩, key, Connects.expired _ hcarries.connects⟩
  · dsimp only at hlog
    rw [hlog, List.append_assoc, List.append_assoc, List.append_assoc]
  · rw [uploads_append, uploads_append, hbilled]
    rcases hends with ⟨rfl, -⟩ | ⟨-, outbound, contact, payload, association, rfl, -⟩
    · exact List.append_nil _
    · exact List.append_nil _
  · intro current
    have hfirst : forwarded current ([.verified key signWith] ++ acts ++ sent) =
        forwarded (some key) sent := by
      obtain ⟨hnone, hcurrent⟩ := forwarded_aside haside (some key)
      rw [List.append_assoc, List.singleton_append, forwarded, forwarded_append, hnone,
        hcurrent, List.nil_append]
    rw [hfirst]
    rcases hends with ⟨rfl, e, he⟩ | ⟨-, outbound, contact, payload, association, rfl, hdest,
      hfound, hsocket⟩
    · refine Or.inl ⟨rfl, ?_⟩
      intro hsome hbind hsend
      cases he.symm.trans (hcarries.delivers hsome hbind hsend)
    · exact Or.inr ⟨outbound, _, rfl, hdest, association, hfound, hsocket⟩

theorem datagram_receives (hstopped : s.stopped = false) :
    Receives P ctx inbound s (step P ctx s (.datagram inbound)) := by
  rw [step, if_neg (by rw [hstopped]; exact Bool.false_ne_true)]
  dsimp only
  cases hopened : opened? P ctx s.tables inbound with
  | none =>
      obtain ⟨hsame, hpanic⟩ := handleInbound_refused (s := { s with
        associations := s.associations.expire inbound.expireAt }) hopened
      have hconnects : Connects ⟨inbound.peer, 0⟩ s { s with
          associations := s.associations.expire inbound.expireAt } :=
        Connects.expired s.log (Connects.refl _ _)
      dsimp only at hsame hpanic
      generalize (handleInbound P ctx s.tables inbound).run _ = r at hsame hpanic ⊢
      obtain ⟨o, s'⟩ := r
      dsimp only at hsame hpanic
      subst hsame
      cases o with
      | ok _ => exact receives_refused hopened rfl (fun _ => rfl) rfl ⟨_, hconnects⟩
      | err e => exact receives_refused hopened rfl (fun _ => rfl) rfl ⟨_, hconnects⟩
      | panic =>
          exact receives_refused hopened rfl (fun hkey => absurd rfl (hpanic hkey)) rfl
            ⟨_, hconnects.close⟩
  | some verified =>
      obtain ⟨signWith, hcarries⟩ := handleInbound_opened hopened { s with
        associations := s.associations.expire inbound.expireAt }
      generalize (handleInbound P ctx s.tables inbound).run _ = r at hcarries ⊢
      obtain ⟨o, s'⟩ := r
      have hreceives := receives_opened hcarries
      cases o with
      | ok _ => exact hreceives
      | err e => exact hreceives
      | panic =>
          obtain ⟨-, -, -, -, -, ⟨-, e, he⟩ | ⟨he, -⟩⟩ := hcarries.log_eq
          · cases he
          · cases he

/-- A turn of a pump adds actions aside, and no upload. -/
theorem pumpTurn_aside (s : UdpListener) (key : AssociationKey) (association : Association)
    (source : SocketAddr) (data : List UInt8) (getrandom : GetRandom) (sent : Bool) :
    ∃ acts, (pumpTurn P s key association source data getrandom sent).log = s.log ++ acts ∧
      (∀ action ∈ acts, action.Aside) ∧ uploads acts = [] ∧
      (pumpTurn P s key association source data getrandom sent).tables = s.tables ∧
      (pumpTurn P s key association source data getrandom sent).stopped = s.stopped ∧
      (pumpTurn P s key association source data getrandom sent).nextSocket = s.nextSocket ∧
      (pumpTurn P s key association source data getrandom sent).associations = s.associations := by
  rw [pumpTurn]
  dsimp only
  cases udpEncryptPacket P association.masterKey association.responseKey
      (packSocketAddr source.ip source.port ++ data) association.cipherKind getrandom with
  | err e => exact ⟨[], (List.append_nil _).symm, List.forall_mem_nil _, rfl, rfl, rfl, rfl, rfl⟩
  | panic => exact ⟨[], (List.append_nil _).symm, List.forall_mem_nil _, rfl, rfl, rfl, rfl, rfl⟩
  | ok packet =>
      cases sent with
      | false =>
          refine ⟨[_], rfl, ?_, rfl, rfl, rfl, rfl, rfl⟩
          intro action hmem
          rw [List.mem_singleton.mp hmem]
          trivial
      | true =>
          refine ⟨[_, _], List.append_assoc .., ?_, rfl, rfl, rfl, rfl, rfl⟩
          intro action hmem
          rcases List.mem_cons.mp hmem with rfl | hlast
          · trivial
          · rw [List.mem_singleton.mp hlast]
            trivial

/-- A step that is no datagram: the sockets are the same or fewer, and nothing is forwarded. -/
structure Idles (s s' : UdpListener) : Prop where
  nextSocket_eq : s'.nextSocket = s.nextSocket
  entries : ∀ k v, s'.associations.value? k = some v → s.associations.value? k = some v
  log_eq : ∃ acts, s'.log = s.log ++ acts ∧ (∀ action ∈ acts, action.Aside) ∧ uploads acts = []

theorem idles_of_log (s s' : UdpListener) (hlog : s'.log = s.log)
    (hnext : s'.nextSocket = s.nextSocket)
    (hentries : ∀ k v, s'.associations.value? k = some v → s.associations.value? k = some v) :
    Idles s s' :=
  ⟨hnext, hentries, [], by rw [hlog, List.append_nil], List.forall_mem_nil _, rfl⟩

/-- The events that are no datagram, and the datagrams that come to a stopped listener. -/
theorem step_idles (event : UdpEvent)
    (hevent : s.stopped = true ∨ ∀ inbound, event ≠ .datagram inbound) :
    Idles s (step P ctx s event) := by
  cases event with
  | republish tables => exact idles_of_log _ _ rfl rfl fun _ _ h => h
  | datagram inbound =>
      have hstopped := hevent.resolve_right fun h => h inbound rfl
      rw [step, if_pos hstopped]
      exact idles_of_log _ _ rfl rfl fun _ _ h => h
  | response key source data getrandom sent =>
      rw [step]
      cases s.pumpOf? key with
      | none => exact idles_of_log _ _ rfl rfl fun _ _ h => h
      | some association =>
          obtain ⟨acts, hlog, haside, hnone, -, -, hnext, hmap⟩ :=
            pumpTurn_aside (P := P) s key association source data getrandom sent
          refine ⟨hnext, ?_, acts, hlog, haside, hnone⟩
          intro k v hv
          rw [hmap] at hv
          exact hv
  | pumpFailed key =>
      rw [step]
      cases s.pumpOf? key with
      | none => exact idles_of_log _ _ rfl rfl fun _ _ h => h
      | some association => exact idles_of_log _ _ rfl rfl fun _ _ h => h
  | stop => exact idles_of_log _ _ rfl rfl fun _ _ h => BoundedTtlMap.value?_retain h

/-! ### The owners of the sockets -/

/-- Every socket that is in use or has been used is its owner's. -/
structure Owned (owner : Nat → AssociationKey) (s : UdpListener) : Prop where
  entries : ∀ key association, s.associations.value? key = some association →
    association.outbound < s.nextSocket ∧ owner association.outbound = key ∧
      association.peer = key.peer
  sent : ∀ f ∈ forwarded none s.log, f.1 < s.nextSocket ∧ owner f.1 = f.2.client

theorem Owned.idles {owner : Nat → AssociationKey} {s' : UdpListener} (h : Owned owner s)
    (hidles : Idles s s') : Owned owner s' := by
  obtain ⟨acts, hlog, haside, -⟩ := hidles.log_eq
  refine ⟨?_, ?_⟩
  · intro key association hfound
    rw [hidles.nextSocket_eq]
    exact h.entries key association (hidles.entries key association hfound)
  · intro f hmem
    rw [hlog, forwarded_append, (forwarded_aside haside _).1, List.append_nil] at hmem
    rw [hidles.nextSocket_eq]
    exact h.sent f hmem

/-- The entries behind a datagram: a new socket is one that nobody has owned. -/
theorem Owned.connects {owner : Nat → AssociationKey} {s' : UdpListener} (h : Owned owner s)
    {key : AssociationKey} (hconnects : Connects key s s') :
    ∃ owner' : Nat → AssociationKey, (∀ n < s.nextSocket, owner' n = owner n) ∧ s.nextSocket ≤ s'.nextSocket ∧
      ∀ k association, s'.associations.value? k = some association →
        association.outbound < s'.nextSocket ∧ owner' association.outbound = k ∧
          association.peer = k.peer := by
  rcases hconnects with ⟨hnext, hkeeps⟩ | ⟨hnext, hkeeps⟩
  · refine ⟨owner, fun _ _ => rfl, Nat.le_of_eq hnext.symm, ?_⟩
    intro k association hfound
    rw [hnext]
    exact h.entries k association (hkeeps k association hfound)
  · refine ⟨fun n => if n = s.nextSocket then key else owner n, ?_, by omega, ?_⟩
    · intro n hn
      exact if_neg (Nat.ne_of_lt hn)
    · intro k association hfound
      rcases hkeeps k association hfound with hold | ⟨rfl, hnew, hpeer⟩
      · obtain ⟨hlt, howner, hpeer⟩ := h.entries k association hold
        exact ⟨by omega, (if_neg (Nat.ne_of_lt hlt)).trans howner, hpeer⟩
      · exact ⟨by omega, if_pos hnew, hpeer⟩

theorem Owned.receives {owner : Nat → AssociationKey} {s' : UdpListener} (h : Owned owner s)
    (hreceives : Receives P ctx inbound s s') : ∃ owner', Owned owner' s' := by
  obtain ⟨key, hconnects⟩ := hreceives.connects
  obtain ⟨owner', hkeeps, hnext, hentries⟩ := h.connects hconnects
  obtain ⟨acts, hlog, -, hforwarded⟩ := hreceives.log_eq
  refine ⟨owner', hentries, ?_⟩
  intro f hmem
  rw [hlog, forwarded_append] at hmem
  cases List.mem_append.mp hmem with
  | inl hold =>
      obtain ⟨hlt, howner⟩ := h.sent f hold
      exact ⟨Nat.lt_of_lt_of_le hlt hnext, (hkeeps f.1 hlt).trans howner⟩
  | inr hnew =>
      rcases hforwarded (currentClient none s.log) with ⟨hnone, -⟩ |
        ⟨outbound, f', hone, -, association, hfound, hsocket⟩
      · rw [hnone] at hnew
        cases hnew
      · rw [hone] at hnew
        rw [List.mem_singleton.mp hnew]
        obtain ⟨hlt, howner, -⟩ := hentries f'.client association hfound
        rw [hsocket] at hlt howner
        exact ⟨hlt, howner⟩

theorem step_owned (ctx : UdpContext) (h : ∃ owner, Owned owner s) (event : UdpEvent) :
    ∃ owner, Owned owner (step P ctx s event) := by
  obtain ⟨owner, howned⟩ := h
  by_cases hidle : s.stopped = true ∨ ∀ inbound, event ≠ .datagram inbound
  · exact ⟨owner, howned.idles (step_idles event hidle)⟩
  · rw [not_or] at hidle
    obtain ⟨inbound, hevent⟩ := not_forall.mp hidle.2
    rw [not_not.mp hevent]
    exact howned.receives (datagram_receives (Bool.not_eq_true _ ▸ hidle.1))

/-- The sockets of a run are private: no two clients ever share one, and what a target answers on
a socket goes to the client that has sent from it. -/
theorem sockets_private (P : Primitives) (ctx : UdpContext) (tables : UserTables)
    (associationTtl maxAssociations : Nat) (events : List UdpEvent) :
    let s := Machine.run (step P ctx) (start tables associationTtl maxAssociations) events
    (∀ f ∈ forwarded none s.log, ∀ f' ∈ forwarded none s.log, f.1 = f'.1 →
      f.2.client = f'.2.client) ∧
    ∀ key association, s.pumpOf? key = some association →
      association.peer = key.peer ∧
      (∀ f ∈ forwarded none s.log, f.1 = association.outbound → f.2.client = key) ∧
      ∀ key' association', s.pumpOf? key' = some association' →
        association'.outbound = association.outbound → key' = key := by
  intro s
  have hstart : ∃ owner, Owned owner (start tables associationTtl maxAssociations) := by
    refine ⟨fun _ => ⟨⟨.v4 (Vector.replicate 4 0), 0⟩, 0⟩, ?_, by rintro _ ⟨⟩⟩
    intro key association hfound
    rw [start_value?] at hfound
    cases hfound
  have hstep : ∀ s event, (∃ owner, Owned owner s) → ∃ owner, Owned owner (step P ctx s event) :=
    fun s event h => step_owned ctx h event
  obtain ⟨owner, howned⟩ := Machine.run_keeps hstep hstart events
  have hpump : ∀ key association, s.pumpOf? key = some association →
      owner association.outbound = key ∧ association.peer = key.peer := by
    intro key association hpump
    exact (howned.entries key association (Option.filter_eq_some_iff.mp hpump).1).2
  refine ⟨?_, ?_⟩
  · intro f hf f' hf' hsame
    rw [← (howned.sent f hf).2, ← (howned.sent f' hf').2, hsame]
  · intro key association hkey
    obtain ⟨howner, hpeer⟩ := hpump key association hkey
    refine ⟨hpeer, ?_, ?_⟩
    · intro f hf hsame
      rw [← (howned.sent f hf).2, hsame, howner]
    · intro key' association' hkey' hsame
      rw [← (hpump key' association' hkey').1, hsame, howner]

end UdpListener

end SsrBackend
