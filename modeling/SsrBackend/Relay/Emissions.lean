import SsrBackend.Relay.AuditRuns
import SsrBackend.Relay.Outputs
import SsrBackend.Relay.UdpSockets

/-!
Where the events that the relays emit come from. A session or a listener emits events
with the address of the client whose bytes it is handling, and of a rule only what it
has been given to scan with.
-/

namespace SsrBackend

open Call

/-- The event names a client's address, and the rule of a match is one of the rules. -/
def RelayEvent.From (ip : String) (rules : RuleSet) : RelayEvent → Prop
  | connect _ ip' _ => ip' = ip
  | detect _ listId ip' => ip' = ip ∧ listId ∈ rules.map CompiledRule.id

theorem scanPayload_from {rules : RuleSet} {userId : Nat} {ip : String} {data : List UInt8}
    {event : RelayEvent} (h : event ∈ (scanPayload rules userId ip data).2) :
    event.From ip rules := by
  rw [scanPayload] at h
  split at h
  · cases h
  · obtain ⟨rule, hrule, rfl⟩ := List.mem_map.mp h
    exact ⟨rfl, List.mem_map_of_mem (List.mem_filter.mp hrule).1⟩

/-- A new auditor emits what the plain scan does. -/
theorem ConnectionAuditor.scan_from {rules : RuleSet} {userId : Nat} {ip peer : String}
    {data : List UInt8} {event : RelayEvent}
    (h : event ∈ ((ConnectionAuditor.new userId ip peer).scan rules data).events) :
    event.From ip rules := by
  have hnew : Remembers userId ip [] [] ⟨false, ConnectionAuditor.new userId ip peer, []⟩ := by
    refine ⟨rfl, rfl, ?_, rfl⟩
    intro id
    exact iff_of_false Std.HashSet.not_mem_empty List.not_mem_nil
  have hevents := (hnew.scan rules data).events_eq
  rw [List.nil_append, List.nil_append] at hevents
  rw [hevents, List.mem_eraseDups] at h
  exact scanPayload_from h

/-! ### A connection -/

namespace Connection

open StreamTask

variable {P : Primitives} {ctx : StreamContext} {rules : RuleSet}

/-- The action emits an event of the client, if it emits. -/
def EmitsFrom (ip : String) (rules : RuleSet) (action : Action) : Prop :=
  ∀ event, action = .emit event → event.From ip rules

/-- A part of the task that emits events of the client only. -/
def Tells {α : Type} (ip : String) (rules : RuleSet) (x : StreamTask α) : Prop :=
  Does (Appends (EmitsFrom ip rules)) (fun _ => True) (fun _ => True) x

section Parts

variable {ip : String} {α β : Type}

theorem Tells.pure (a : α) : Tells ip rules (Pure.pure a : StreamTask α) :=
  Does.pure (appends_chains _) trivial

theorem Tells.bail (e : StreamError) : Tells ip rules (Call.bail e : StreamTask α) :=
  Does.bail (appends_chains _) trivial

theorem Tells.bind {x : StreamTask α} {f : α → StreamTask β} (hx : Tells ip rules x)
    (hf : ∀ a, Tells ip rules (f a)) : Tells ip rules (x >>= f) :=
  Does.bind (appends_chains _) hx fun a _ => hf a

theorem Tells.lift {ε : Type} (wrap : ε → StreamError) (o : Outcome ε α) :
    Tells ip rules (StreamTask.lift wrap o) :=
  lift_does (fun _ _ => trivial) fun _ => trivial

theorem Tells.of_slice (buf : List UInt8) (lo hi : Nat) :
    Tells ip rules (slice buf lo hi : StreamTask (List UInt8)) :=
  Does.of_slice (appends_chains _) buf lo hi

theorem Tells.append {actions : List Action} (h : ∀ action ∈ actions, EmitsFrom ip rules action) :
    Tells ip rules (modify fun log => log ++ actions : StreamTask PUnit) :=
  modify_does actions h

theorem Tells.perform {action : Action} (h : EmitsFrom ip rules action) :
    Tells ip rules (StreamTask.perform action) :=
  perform_does action h

/-- An action that is no event. -/
theorem Tells.silently {action : Action} (h : ∀ event, action ≠ .emit event) :
    Tells ip rules (StreamTask.perform action) :=
  .perform fun event heq => absurd heq (h event)

theorem Tells.throttle (limiter : Option Handle) (amount : Nat) :
    Tells ip rules (StreamTask.throttle limiter amount) := by
  cases limiter with
  | none => exact .pure ()
  | some handle => exact .silently (by rintro _ ⟨⟩)

theorem Tells.writeRemote (data : List UInt8) (write : Delivery) :
    Tells ip rules (StreamTask.writeRemote data write) := by
  cases write with
  | done => exact .silently (by rintro _ ⟨⟩)
  | failed sent reason => exact .bind (.silently (by rintro _ ⟨⟩)) fun _ => .bail _
  | timedOut sent => exact .bind (.silently (by rintro _ ⟨⟩)) fun _ => .bail _

theorem Tells.writeClient (data : List UInt8) (write : Delivery) :
    Tells ip rules (StreamTask.writeClient data write) := by
  cases write with
  | done => exact .silently (by rintro _ ⟨⟩)
  | failed sent reason => exact .bind (.silently (by rintro _ ⟨⟩)) fun _ => .bail _
  | timedOut sent => exact .bind (.silently (by rintro _ ⟨⟩)) fun _ => .bail _

end Parts

theorem lookupCounters_tells (userId : Nat) :
    Tells ctx.peerIp rules (lookupCounters ctx userId) := by
  rw [lookupCounters]
  split
  · exact .pure _
  · split
    · exact .pure _
    · exact .bail _

theorem acquireSlot_tells (world : World) (userId : Nat) (policy : Option UserPolicy) :
    Tells ctx.peerIp rules (acquireSlot ctx world userId policy) := by
  unfold acquireSlot
  split
  · exact .pure _
  · split
    · split
      · exact .bail _
      · split
        · exact .pure _
        · exact .bind (.silently (by rintro _ ⟨⟩)) fun _ => .pure _
    · exact .pure _

theorem auditTurn_tells (world : World) (session : ServerSession) (served : Served)
    (target : Address) (initial : List UInt8) :
    Tells ctx.peerIp world.rules (auditTurn ctx world session served target initial) := by
  rw [auditTurn]
  apply Tells.bind
  · rw [auditInitial]
    apply Tells.bind
    · apply Tells.perform
      rintro _ ⟨⟩
      rfl
    intro _
    apply Tells.bind (.silently (by rintro _ ⟨⟩))
    intro _
    apply Tells.bind
    · apply Tells.append
      intro action hmem event heq
      obtain ⟨emitted, hemitted, rfl⟩ := List.mem_map.mp hmem
      cases heq
      exact ConnectionAuditor.scan_from hemitted
    · exact fun _ => .pure _
  · intro matched
    split
    · exact .bail _
    · exact .pure _

theorem authenticated_tells (world : World) (session : ServerSession) (target : Address)
    (initial : List UInt8) (preAuthUpload : Nat) :
    Tells ctx.peerIp world.rules
      (authenticated ctx world session target initial preAuthUpload) := by
  rw [authenticated]
  dsimp only
  apply Tells.bind (lookupCounters_tells _)
  intro counters
  apply Tells.bind (.silently (by rintro _ ⟨⟩))
  intro _
  apply Tells.bind (acquireSlot_tells world _ _)
  intro admitted
  split
  · exact auditTurn_tells world session _ target initial
  · exact .pure _

theorem handshakeTurn_tells (h : Handshake) (chunk : List UInt8) (world : World) :
    Tells ctx.peerIp world.rules (handshakeTurn P ctx h chunk world) := by
  rw [handshakeTurn]
  dsimp only
  split
  · exact .pure _
  apply Tells.bind (.silently (by rintro _ ⟨⟩))
  intro _
  apply Tells.bind (.lift _ _)
  intro decoded
  split
  · exact .pure _
  apply Tells.bind (.lift _ _)
  intro parsed
  cases parsed with
  | none =>
      dsimp only
      split
      · exact .bail _
      · exact .pure _
  | some found =>
      apply Tells.bind (.of_slice _ _ _)
      intro initial
      exact authenticated_tells world _ found.1 initial _

theorem connectTurn_tells (session : ServerSession) (served : Served) (target : Address)
    (initial : List UInt8) (net : Network) (failure : Option (Nat × String)) :
    Tells ctx.peerIp rules (connectTurn ctx session served target initial net failure) := by
  rw [connectTurn]
  apply Tells.bind
  · apply Tells.append
    intro action hmem event heq
    obtain ⟨contact, -, rfl⟩ := List.mem_map.mp hmem
    cases heq
  intro _
  apply Tells.bind (.lift _ _)
  intro _
  split
  · exact .pure _
  · apply Tells.bind (.throttle _ _)
    intro _
    apply Tells.bind (.writeRemote _ _)
    exact fun _ => .pure _

theorem clientTurn_tells (session : ServerSession) (served : Served) (chunk : List UInt8)
    (write : Delivery) : Tells ctx.peerIp rules (clientTurn P session served chunk write) := by
  rw [clientTurn]
  dsimp only
  split
  · exact .pure _
  apply Tells.bind (.silently (by rintro _ ⟨⟩))
  intro _
  apply Tells.bind (.silently (by rintro _ ⟨⟩))
  intro _
  apply Tells.bind (.lift _ _)
  intro data
  split
  · exact .pure _
  · apply Tells.bind (.throttle _ _)
    intro _
    apply Tells.bind (.writeRemote _ _)
    exact fun _ => .pure _

theorem remoteTurn_tells (session : ServerSession) (served : Served) (chunk : List UInt8)
    (write : Delivery) : Tells ctx.peerIp rules (remoteTurn P session served chunk write) := by
  rw [remoteTurn]
  dsimp only
  split
  · exact .pure _
  apply Tells.bind (.lift _ _)
  intro wire
  apply Tells.bind (.silently (by rintro _ ⟨⟩))
  intro _
  apply Tells.bind (.throttle _ _)
  intro _
  apply Tells.bind (.writeClient _ _)
  exact fun _ => .pure _

/-- The rules that an event of the connection comes with. -/
def rulesOf : StreamEvent → RuleSet
  | .clientRead _ world _ => world.rules
  | _ => []

theorem turn_tells (phase : StreamPhase) (event : StreamEvent) :
    Tells ctx.peerIp (rulesOf event) (turn P ctx phase event) := by
  have hstay : Tells ctx.peerIp (rulesOf event) (pure phase : StreamTask StreamPhase) := .pure _
  cases phase with
  | handshake h =>
      cases event with
      | clientRead chunk world write => exact handshakeTurn_tells h chunk world
      | clientFailed reason => exact .bail _
      | idle => exact .bail _
      | _ => exact hstay
  | connecting session served target initial =>
      cases event with
      | connected net failure => exact connectTurn_tells session served target initial net failure
      | _ => exact hstay
  | relay session served =>
      cases event with
      | clientRead chunk world write => exact clientTurn_tells session served chunk write
      | remoteRead chunk write => exact remoteTurn_tells session served chunk write
      | connected net failure => exact hstay
      | _ => exact .bail _
  | closed result => cases event <;> exact hstay

/-- A step adds events of the client only. -/
theorem step_tells (c : Connection) (event : StreamEvent) :
    ∃ extra, (step P ctx c event).log = c.log ++ extra ∧
      ∀ action ∈ extra, EmitsFrom ctx.peerIp (rulesOf event) action := by
  have htells : Tells ctx.peerIp (rulesOf event) (turn P ctx c.phase event) :=
    turn_tells c.phase event
  have hstate := htells.state c.log
  rw [step]
  generalize (turn P ctx c.phase event).run c.log = r at hstate ⊢
  obtain ⟨o, log⟩ := r
  cases o with
  | ok phase => exact hstate
  | err e => exact hstate
  | panic => exact hstate

end Connection

/-! ### The listeners -/

/-- What is emitted is of a client. -/
def RelayOutput.From (ip : String) (rules : RuleSet) : RelayOutput → Prop
  | record .. => True
  | emit event => event.From ip rules

theorem Action.output_from {ip : String} {rules : RuleSet} {actions : List Action}
    (h : ∀ action ∈ actions, Connection.EmitsFrom ip rules action) :
    ∀ output ∈ actions.filterMap Action.output?, output.From ip rules := by
  intro output hmem
  obtain ⟨action, haction, houtput⟩ := List.mem_filterMap.mp hmem
  cases action with
  | emit event =>
      cases houtput
      exact h _ haction event rfl
  | recordUpload counters bytes =>
      cases houtput
      trivial
  | recordDownload counters bytes =>
      cases houtput
      trivial
  | _ => cases houtput

/-- The rules that an event of a session comes with. -/
def TaskEvent.rules : TaskEvent → RuleSet
  | stream event => Connection.rulesOf event
  | _ => []

theorem TcpSession.outputs_from (P : Primitives) (s : TcpSession) (event : TaskEvent) :
    ∀ output ∈ s.outputs P event, output.From s.ctx.peerIp event.rules := by
  have hsilent {t : TcpSession} (hlog : t.log.drop s.log.length = []) :
      ∀ output ∈ (t.log.drop s.log.length).filterMap Action.output?,
        output.From s.ctx.peerIp event.rules := by
    rw [hlog]
    exact List.forall_mem_nil _
  obtain ⟨ctx, task⟩ := s
  rw [outputs]
  cases task with
  | spawned =>
      cases event with
      | opened getrandom =>
          rw [TcpListener.step_opened]
          split <;> exact hsilent rfl
      | _ => exact hsilent rfl
  | live c =>
      cases event with
      | opened getrandom => exact hsilent List.drop_length
      | stream event =>
          obtain ⟨extra, hlog, hextra⟩ := Connection.step_tells (P := P) c event
          change ∀ output ∈ ((Connection.step P ctx c event).log.drop c.log.length).filterMap
            Action.output?, output.From ctx.peerIp (Connection.rulesOf event)
          rw [hlog, List.drop_left]
          exact Action.output_from hextra
      | finish =>
          obtain ⟨phase, log⟩ := c
          cases phase with
          | closed result => exact hsilent List.drop_nil
          | _ => exact hsilent List.drop_length
  | ended => cases event <;> exact hsilent rfl

namespace UdpListener

variable {P : Primitives} {ctx : UdpContext}

/-- A part of the listener's work that emits events of a client only. -/
def Tells (ip : String) (rules : RuleSet) (s s' : UdpListener) : Prop :=
  ∃ extra, s'.log = s.log ++ extra ∧
    ∀ event, .emit event ∈ extra → event.From ip rules

theorem tells_chains (ip : String) (rules : RuleSet) : Chains (Tells ip rules) := by
  constructor
  · intro s
    refine ⟨[], (List.append_nil _).symm, ?_⟩
    rintro _ ⟨⟩
  · rintro s s' s'' ⟨extra, hlog, hextra⟩ ⟨extra', hlog', hextra'⟩
    refine ⟨extra ++ extra', ?_, ?_⟩
    · rw [hlog', hlog, List.append_assoc]
    · intro event hmem
      exact (List.mem_append.mp hmem).elim (hextra event) (hextra' event)

/-- A part of `handle_inbound` that does so. -/
def Reports {α : Type} (inbound : Inbound) (x : UdpTask α) : Prop :=
  Does (Tells inbound.peerIp inbound.rules) (fun _ => True) (fun _ => True) x

variable {inbound : Inbound}

/-- A relation that the entries of the log and the look-up of the association keep to: all that
the work on a datagram does to the state. -/
structure Composes (ctx : UdpContext) (inbound : Inbound)
    (R : UdpListener → UdpListener → Prop) : Prop where
  chains : Chains R
  log : ∀ actions : List UdpAction,
    (∀ event, .emit event ∈ actions → event.From inbound.peerIp inbound.rules) →
      Does R (fun _ => True) (fun _ => True)
        (modify fun s => { s with log := s.log ++ actions } : UdpTask PUnit)
  associate : ∀ key signWith counters, Does R (fun _ => True) (fun _ => True)
    (associate ctx key signWith counters inbound)

namespace Composes

variable {R : UdpListener → UdpListener → Prop}

theorem perform (h : Composes ctx inbound R) {action : UdpAction}
    (hsilent : ∀ event, action ≠ .emit event) :
    Does R (fun _ => True) (fun _ => True) (perform action) := by
  apply h.log
  intro event hmem
  exact absurd (List.mem_singleton.mp hmem).symm (hsilent event)

theorem ofOutcome (h : Composes ctx inbound R) {ε α : Type} (wrap : ε → UdpError)
    (o : Outcome ε α) :
    Does R (fun _ => True) (fun _ => True) (Call.ofOutcome wrap o : UdpTask α) :=
  .ofOutcome h.chains (fun _ _ => trivial) fun _ _ => trivial

theorem forward (h : Composes ctx inbound R) (tables : UserTables) (userId : Nat)
    (signWith : List UInt8) (counters : Handle) (target : Address) (payload : List UInt8) :
    Does R (fun _ => True) (fun _ => True)
      (forward ctx tables userId signWith counters target payload inbound) := by
  rw [UdpListener.forward]
  dsimp only
  split
  · exact .bail h.chains trivial
  apply Does.bind h.chains (h.perform (by rintro _ ⟨⟩))
  intro _ _
  apply Does.bind h.chains
  · apply h.log
    intro event hmem
    obtain ⟨hit, hhit, heq⟩ := List.mem_map.mp hmem
    cases heq
    exact scanPayload_from hhit
  intro _ _
  apply Does.bind h.chains (h.ofOutcome _ _)
  intro contact _
  apply Does.bind h.chains (h.associate _ signWith counters)
  intro outbound _
  split
  · exact .bail h.chains trivial
  · exact h.perform (by rintro _ ⟨⟩)

theorem handleInbound (h : Composes ctx inbound R) (tables : UserTables) :
    Does R (fun _ => True) (fun _ => True) (handleInbound P ctx tables inbound) := by
  rw [UdpListener.handleInbound]
  apply Does.bind h.chains (h.ofOutcome _ _)
  intro verified _
  apply Does.bind h.chains (h.perform (by rintro _ ⟨⟩))
  intro _ _
  rw [deliver]
  apply Does.bind h.chains (lookupCounters_does h.chains ctx tables _ fun _ => trivial)
  intro counters _
  apply Does.bind h.chains (h.perform (by rintro _ ⟨⟩))
  intro _ _
  apply Does.bind h.chains (h.ofOutcome _ _)
  intro parsed _
  cases parsed with
  | none => exact .bail h.chains trivial
  | some found =>
      apply Does.bind h.chains (Does.of_slice h.chains _ _ _)
      intro payload _
      exact h.forward tables _ _ counters found.1 payload

end Composes

theorem associate_reports (key : AssociationKey) (signWith : List UInt8) (counters : Handle) :
    Reports inbound (associate ctx key signWith counters inbound) := by
  have hconnect : ∀ event, .emit event ∈ [UdpAction.emit (.connect key.userId inbound.peerIp
      inbound.peerText)] → event.From inbound.peerIp inbound.rules := by
    intro event hmem
    cases List.mem_singleton.mp hmem
    rfl
  refine ⟨?_, fun _ _ _ => trivial, fun _ _ _ => trivial⟩
  intro s
  rcases associate_cases ctx inbound key signWith counters s with
    ⟨association, -, hrun⟩ | ⟨reason, -, hrun⟩ | hrun
  · rw [hrun]
    refine ⟨[], (List.append_nil _).symm, ?_⟩
    rintro _ ⟨⟩
  · rw [hrun]
    exact ⟨_, rfl, hconnect⟩
  · rw [hrun]
    exact ⟨_, rfl, hconnect⟩

theorem handleInbound_reports (tables : UserTables) :
    Reports inbound (handleInbound P ctx tables inbound) := by
  have hcomposes : Composes ctx inbound (Tells inbound.peerIp inbound.rules) :=
    ⟨tells_chains _ _, fun actions hfrom => .modify fun _ => ⟨actions, rfl, hfrom⟩,
      associate_reports⟩
  exact hcomposes.handleInbound tables

/-- The address and the rules that an event of the listener comes with. -/
def origin? : UdpEvent → Option (String × RuleSet)
  | .datagram inbound => some (inbound.peerIp, inbound.rules)
  | _ => none

theorem outputs_from (P : Primitives) (ctx : UdpContext) (s : UdpListener) (event : UdpEvent) :
    ∀ output ∈ outputs P ctx s event, ∀ emitted, output = .emit emitted →
      ∃ ip rules, origin? event = some (ip, rules) ∧ emitted.From ip rules := by
  have hextra {s' : UdpListener} {extra : List UdpAction} (hlog : s'.log = s.log ++ extra)
      (h : ∀ event', .emit event' ∈ extra →
        ∃ ip rules, origin? event = some (ip, rules) ∧ event'.From ip rules) :
      ∀ output ∈ (s'.log.drop s.log.length).filterMap UdpAction.output?, ∀ emitted,
        output = .emit emitted →
          ∃ ip rules, origin? event = some (ip, rules) ∧ emitted.From ip rules := by
    rw [hlog, List.drop_left]
    intro output hmem emitted heq
    obtain ⟨action, haction, houtput⟩ := List.mem_filterMap.mp hmem
    cases action with
    | emit event' =>
        cases houtput
        cases heq
        exact h _ haction
    | recordUpload counters bytes =>
        cases houtput
        cases heq
    | recordDownload counters bytes =>
        cases houtput
        cases heq
    | _ => cases houtput
  have hnone {s' : UdpListener} (hlog : s'.log = s.log) :
      ∀ output ∈ (s'.log.drop s.log.length).filterMap UdpAction.output?, ∀ emitted,
        output = .emit emitted →
          ∃ ip rules, origin? event = some (ip, rules) ∧ emitted.From ip rules := by
    apply hextra (hlog.trans (List.append_nil _).symm)
    rintro _ ⟨⟩
  rw [outputs]
  cases event with
  | republish tables => exact hnone rfl
  | datagram inbound =>
      have hreports : Reports inbound (handleInbound P ctx s.tables inbound) :=
        handleInbound_reports s.tables
      obtain ⟨extra, hlog, hfrom⟩ := hreports.state { s with
        associations := s.associations.expire inbound.expireAt }
      have hall : ∀ event', .emit event' ∈ extra →
          ∃ ip rules, origin? (.datagram inbound) = some (ip, rules) ∧ event'.From ip rules :=
        fun event' hmem => ⟨_, _, rfl, hfrom event' hmem⟩
      apply step_datagram (Q := fun s' => ∀ output ∈ (s'.log.drop s.log.length).filterMap
        UdpAction.output?, ∀ emitted, output = .emit emitted →
          ∃ ip rules, origin? (.datagram inbound) = some (ip, rules) ∧ emitted.From ip rules)
      · exact hnone rfl
      · exact hextra hlog hall
      · intro s' hs'
        exact hs'
  | response key source data getrandom sent =>
      rw [step]
      cases s.pumpOf? key with
      | none => exact hnone rfl
      | some association =>
          dsimp only
          rw [pumpTurn]
          dsimp only
          cases udpEncryptPacket P association.masterKey association.responseKey
              (packSocketAddr source.ip source.port ++ data) association.cipherKind getrandom with
          | err e => exact hnone rfl
          | panic => exact hnone rfl
          | ok packet =>
              cases sent with
              | false =>
                  apply hextra rfl
                  intro event' hmem
                  cases List.mem_singleton.mp hmem
              | true =>
                  apply hextra (List.append_assoc ..)
                  intro event' hmem
                  simp at hmem
  | pumpFailed key =>
      rw [step]
      cases s.pumpOf? key <;> exact hnone rfl
  | stop => exact hnone rfl

end UdpListener

end SsrBackend
