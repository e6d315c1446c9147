import SsrBackend.Relay.Connection
import SsrBackend.Relay.UdpRuns

/-!
The two codings of the forbidden-target rule against each other: the destination
of a datagram is the first address that the checked connect would attempt, and
neither of them is one that the policy of the user forbids.
-/

namespace SsrBackend

open Call

def Contact.port : Contact → UInt16
  | addr a => a.port
  | hostPort _ port => port

/-- The policy lets the relay contact the target. A name is no contact for a user with a list of
forbidden addresses: what it resolves to is not known. -/
def Permits (policy : Option UserPolicy) (contact : Contact) : Prop :=
  ∀ p, policy = some p → p.portForbidden contact.port = false ∧
    (p.hasForbiddenIp = true → ∃ a, contact = .addr a ∧ p.ipForbidden a.ip = false)

section Checked

variable (target : Address) (policy : Option UserPolicy) (enforcement : EnforcementConfig)
  (net : Network)

/-- The checked connect, with the contacts that it makes. -/
def tcpAttempt : Outcome TargetError Contact × List Contact :=
  (connectTargetChecked target policy enforcement net).run []

/-- The destination that the port check and `resolve_udp_dest` leave to a datagram. -/
def udpDestination? : Option Contact :=
  if portCheck policy enforcement target.port then none
  else
    match resolveUdpDest target policy enforcement net with
    | .ok contact => some contact
    | _ => none

theorem allowedAddrs_port {a : SocketAddr} (h : a ∈ allowedAddrs target policy net) :
    a.port = target.port := by
  rw [allowedAddrs, Network.lookupHost] at h
  cases hr : net.resolve with
  | error reason =>
      rw [hr] at h
      cases h
  | ok ips =>
      rw [hr] at h
      obtain ⟨ip, -, rfl⟩ := List.mem_map.mp (List.mem_filter.mp h).1
      rfl

theorem allowedAddrs_allowed {p : UserPolicy} {a : SocketAddr}
    (h : a ∈ allowedAddrs target (some p) net) : p.ipForbidden a.ip = false := by
  rw [allowedAddrs] at h
  cases hl : net.lookupHost target.port with
  | error reason =>
      rw [hl] at h
      cases h
  | ok resolved =>
      rw [hl] at h
      have hkept := (List.mem_filter.mp h).2
      simpa using hkept

/-- `resolve_udp_dest` takes the first of the allowed addresses. -/
theorem resolveUdpDest_run :
    (ipCheck policy enforcement = false ∧
      resolveUdpDest target policy enforcement net = .ok (.hostPort target.host target.port)) ∨
    (ipCheck policy enforcement = true ∧ allowedAddrs target policy net = [] ∧
      ∃ e, resolveUdpDest target policy enforcement net = .err e) ∨
    (ipCheck policy enforcement = true ∧ ∃ a, (allowedAddrs target policy net).head? = some a ∧
      resolveUdpDest target policy enforcement net = .ok (.addr a)) := by
  unfold resolveUdpDest
  cases hip : ipCheck policy enforcement with
  | false => exact Or.inl ⟨rfl, rfl⟩
  | true =>
      obtain ⟨p, rfl⟩ : ∃ p, policy = some p := by
        cases policy with
        | none => simp [ipCheck] at hip
        | some p => exact ⟨p, rfl⟩
      cases hl : net.lookupHost target.port with
      | error reason => exact Or.inr (Or.inl ⟨rfl, by rw [allowedAddrs, hl], _, rfl⟩)
      | ok resolved =>
          have hallowed : (allowedAddrs target (some p) net) =
              resolved.filter fun addr => !p.ipForbidden addr.ip := by
            simp [allowedAddrs, hl]
          have hfind := List.head?_filter (p := fun a : SocketAddr => !p.ipForbidden a.ip)
            (l := resolved)
          rw [← hallowed] at hfind
          by_cases hnone : resolved = []
          · subst hnone
            exact Or.inr (Or.inl ⟨rfl, hallowed, _, rfl⟩)
          · cases hfound : resolved.find? fun addr => !p.ipForbidden addr.ip with
            | none =>
                refine Or.inr (Or.inl ⟨rfl, ?_, .onlyForbidden target.host target.port, ?_⟩)
                · rw [← List.head?_eq_none_iff, hfind, hfound]
                · simp [hnone, hfound]
            | some a =>
                refine Or.inr (Or.inr ⟨rfl, a, by rw [hfind, hfound], ?_⟩)
                simp [hnone, hfound]

/-- The checked connect never panics, and its first attempt is the destination of a datagram. -/
theorem udpDestination?_eq_head :
    (tcpAttempt target policy enforcement net).1 ≠ .panic ∧
      udpDestination? target policy enforcement net =
        (tcpAttempt target policy enforcement net).2.head? := by
  obtain ⟨o, contacts, hrun, hpanic, hcases⟩ :=
    connectTargetChecked_run target policy enforcement net []
  rw [tcpAttempt, hrun, List.nil_append, udpDestination?]
  refine ⟨hpanic, ?_⟩
  rcases hcases with ⟨hport, rfl, -⟩ | ⟨hport, hcases⟩
  · rw [if_pos hport, List.head?_nil]
  rw [if_neg (by rw [hport]; decide)]
  rcases resolveUdpDest_run target policy enforcement net with
    ⟨hip, hdest⟩ | ⟨hip, hnone, e, hdest⟩ | ⟨hip, a, hhead, hdest⟩
  · rw [hdest]
    rcases hcases with ⟨-, rfl⟩ | ⟨hip', -⟩ | ⟨hip', -⟩
    · rfl
    · rw [hip] at hip'
      cases hip'
    · rw [hip] at hip'
      cases hip'
  · rw [hdest]
    rcases hcases with ⟨hip', -⟩ | ⟨-, -, rfl, -⟩ | ⟨-, m, -, rfl, -⟩
    · rw [hip] at hip'
      cases hip'
    · rfl
    · rw [hnone, List.take_nil]
      rfl
  · rw [hdest]
    obtain ⟨rest, hallowed⟩ := List.head?_eq_some_iff.mp hhead
    rcases hcases with ⟨hip', -⟩ | ⟨-, hnone, -⟩ | ⟨-, m, hpos, rfl, -⟩
    · rw [hip] at hip'
      cases hip'
    · rw [hnone] at hallowed
      cases hallowed
    · obtain ⟨k, rfl⟩ := Nat.exists_eq_succ_of_ne_zero (Nat.ne_of_gt hpos)
      rw [hallowed, List.take_succ_cons]
      rfl

theorem resolveUdpDest_ne_panic : resolveUdpDest target policy enforcement net ≠ .panic := by
  intro hpanic
  rcases resolveUdpDest_run target policy enforcement net with
    ⟨-, hdest⟩ | ⟨-, -, e, hdest⟩ | ⟨-, a, -, hdest⟩
  all_goals
    rw [hpanic] at hdest
    cases hdest

variable {enforcement} (h : enforcement.forbidden = true)

include h in
theorem portCheck_eq (port : UInt16) :
    portCheck policy enforcement port = policy.any fun p => p.portForbidden port := by
  rw [portCheck, h, Bool.true_and]

include h in
theorem ipCheck_eq : ipCheck policy enforcement = policy.any UserPolicy.hasForbiddenIp := by
  rw [ipCheck, h, Bool.true_and]

include h in
/-- No contact of the checked connect is forbidden. -/
theorem tcpAttempt_permits {contact : Contact}
    (hmem : contact ∈ (tcpAttempt target policy enforcement net).2) : Permits policy contact := by
  obtain ⟨o, contacts, hrun, -, hcases⟩ := connectTargetChecked_run target policy enforcement net []
  rw [tcpAttempt, hrun, List.nil_append] at hmem
  rintro p rfl
  rw [portCheck_eq _ h, ipCheck_eq _ h, Option.any_some, Option.any_some] at hcases
  rcases hcases with ⟨-, rfl, -⟩ | ⟨hport, ⟨hip, rfl⟩ | ⟨-, -, rfl, -⟩ | ⟨-, m, -, rfl, -⟩⟩
  · cases hmem
  · rw [List.mem_singleton.mp hmem, hip]
    exact ⟨hport, nofun⟩
  · cases hmem
  · obtain ⟨a, ha, rfl⟩ := List.mem_map.mp hmem
    have hallowed := List.mem_of_mem_take ha
    refine ⟨?_, fun _ => ⟨a, rfl, allowedAddrs_allowed target net hallowed⟩⟩
    rw [Contact.port, allowedAddrs_port target _ net hallowed]
    exact hport

/-- The rule on both paths, for one target and one answer of the network. -/
structure TargetsEnforced (enforcement : EnforcementConfig) : Prop where
  contacts : ∀ contact ∈ (tcpAttempt target policy enforcement net).2, Permits policy contact
  destination : ∀ contact, udpDestination? target policy enforcement net = some contact →
    Permits policy contact
  attempts_iff : (tcpAttempt target policy enforcement net).2 ≠ [] ↔
    ∃ contact, udpDestination? target policy enforcement net = some contact
  first : udpDestination? target policy enforcement net =
    (tcpAttempt target policy enforcement net).2.head?
  inOrder : (policy.any fun p => p.portForbidden target.port) = false →
    policy.any UserPolicy.hasForbiddenIp = true →
    ∃ m, (tcpAttempt target policy enforcement net).2 =
        ((allowedAddrs target policy net).take m).map Contact.addr ∧
      (allowedAddrs target policy net ≠ [] → 0 < m ∧ Tried net.connect 0
        (allowedAddrs target policy net) m (tcpAttempt target policy enforcement net).1)
  unresolved : (policy.any fun p => p.portForbidden target.port) = false →
    policy.any UserPolicy.hasForbiddenIp = false →
    (tcpAttempt target policy enforcement net).2 = [.hostPort target.host target.port] ∧
      udpDestination? target policy enforcement net = some (.hostPort target.host target.port)
  tcp_ne_panic : (tcpAttempt target policy enforcement net).1 ≠ .panic
  udp_ne_panic : resolveUdpDest target policy enforcement net ≠ .panic

include h in
theorem tcpAttempt_inOrder (hport : (policy.any fun p => p.portForbidden target.port) = false)
    (hip : policy.any UserPolicy.hasForbiddenIp = true) :
    ∃ m, (tcpAttempt target policy enforcement net).2 =
        ((allowedAddrs target policy net).take m).map Contact.addr ∧
      (allowedAddrs target policy net ≠ [] → 0 < m ∧ Tried net.connect 0
        (allowedAddrs target policy net) m (tcpAttempt target policy enforcement net).1) := by
  obtain ⟨o, contacts, hrun, -, hcases⟩ := connectTargetChecked_run target policy enforcement net []
  rw [tcpAttempt, hrun, List.nil_append]
  rw [portCheck_eq _ h, ipCheck_eq _ h, hport, hip] at hcases
  rcases hcases with ⟨hport', -⟩ | ⟨-, ⟨hip', -⟩ | ⟨-, hnone, rfl, -⟩ | ⟨-, m, hpos, rfl, htried⟩⟩
  · cases hport'
  · cases hip'
  · exact ⟨0, rfl, fun hsome => absurd hnone hsome⟩
  · exact ⟨m, rfl, fun _ => ⟨hpos, htried⟩⟩

include h in
theorem tcpAttempt_unresolved (hport : (policy.any fun p => p.portForbidden target.port) = false)
    (hip : policy.any UserPolicy.hasForbiddenIp = false) :
    (tcpAttempt target policy enforcement net).2 = [.hostPort target.host target.port] := by
  obtain ⟨o, contacts, hrun, -, hcases⟩ := connectTargetChecked_run target policy enforcement net []
  rw [tcpAttempt, hrun, List.nil_append]
  rw [portCheck_eq _ h, ipCheck_eq _ h, hport, hip] at hcases
  rcases hcases with ⟨hport', -⟩ | ⟨-, ⟨-, hcontacts⟩ | ⟨hip', -⟩ | ⟨hip', -⟩⟩
  · cases hport'
  · exact hcontacts
  · cases hip'
  · cases hip'

include h in
theorem targetsEnforced : TargetsEnforced target policy net enforcement := by
  obtain ⟨hpanic, hfirst⟩ := udpDestination?_eq_head target policy enforcement net
  refine ⟨fun contact => tcpAttempt_permits target policy net h, ?_, ?_, hfirst,
    tcpAttempt_inOrder target policy net h, ?_, hpanic,
    resolveUdpDest_ne_panic target policy enforcement net⟩
  · intro contact hdest
    rw [hfirst] at hdest
    exact tcpAttempt_permits target policy net h (List.mem_of_head? hdest)
  · rw [hfirst, ← Option.isSome_iff_exists, List.isSome_head?]
  · intro hport hip
    have hcontacts := tcpAttempt_unresolved target policy net h hport hip
    refine ⟨hcontacts, ?_⟩
    rw [hfirst, hcontacts]
    rfl

end Checked

/-! ### The listeners -/

namespace UdpListener

variable (ctx : UdpContext) (tables : UserTables) (inbound : Inbound)

theorem cleared_iff {userId : Nat} {target : Address} {contact : Contact} :
    Cleared ctx tables inbound userId target contact ↔
      udpDestination? target tables.policies[userId]? ctx.enforcement inbound.net =
        some contact := by
  rw [Cleared, udpDestination?]
  cases portCheck tables.policies[userId]? ctx.enforcement target.port with
  | true => simp
  | false =>
      cases resolveUdpDest target tables.policies[userId]? ctx.enforcement inbound.net with
      | ok dest => simp
      | err e => simp
      | panic => simp

/-- A datagram is sent to a destination that the checks have left to it, if at all. -/
def SentToDestination (userId : Nat) : UdpAction → Prop
  | .send _ contact _ => ∃ target,
      udpDestination? target tables.policies[userId]? ctx.enforcement inbound.net = some contact
  | _ => True

theorem deliver_sends {userId : Nat} (signWith plain : List UInt8) (s : UdpListener) :
    ∃ extra, ((deliver ctx tables userId signWith plain inbound).run s).2.log = s.log ++ extra ∧
      ∀ action ∈ extra, SentToDestination ctx tables inbound userId action := by
  have hdoes : Does (Handles (SentToDestination ctx tables inbound userId) ⟨inbound.peer, userId⟩
      (Made ctx tables inbound signWith userId)) (fun _ => True) (fun _ => True)
      (deliver ctx tables userId signWith plain inbound) :=
    deliver_does ctx tables inbound plain (fun _ => trivial) (fun _ _ => trivial)
      (fun _ _ => trivial)
      (fun _ target contact _ hcleared => ⟨target, (cleared_iff ctx tables inbound).mp hcleared⟩)
      (fun _ _ => trivial) (fun _ => trivial)
  exact (hdoes.state s).log_eq

/-- The user a datagram is attributed to. -/
def realUserId (P : Primitives) : Nat :=
  match udpDecryptPacket P ctx.masterKey tables.authUsers ctx.isMultiUser inbound.datagram
      ctx.cipherKind with
  | .ok (_, authenticated) => authenticated.getD ctx.userId
  | _ => ctx.userId

theorem handleInbound_sends (P : Primitives) (s : UdpListener) :
    ∃ extra, ((handleInbound P ctx tables inbound).run s).2.log = s.log ++ extra ∧
      ∀ action ∈ extra,
        SentToDestination ctx tables inbound (realUserId ctx tables inbound P) action := by
  rw [realUserId]
  cases hdecrypt : udpDecryptPacket P ctx.masterKey tables.authUsers ctx.isMultiUser
      inbound.datagram ctx.cipherKind with
  | ok verified =>
      rw [handleInbound_run ctx tables inbound hdecrypt]
      obtain ⟨extra, hextra, hsent⟩ := deliver_sends ctx tables inbound
        (responseKey ctx tables verified.2) verified.1 { s with log := s.log ++ [.verified
          ⟨inbound.peer, verified.2.getD ctx.userId⟩ (responseKey ctx tables verified.2)] }
      refine ⟨_, by rw [hextra, List.append_assoc], ?_⟩
      intro action hmem
      cases List.mem_append.mp hmem with
      | inl hverified =>
          rw [List.mem_singleton.mp hverified]
          exact trivial
      | inr hmem => exact hsent action hmem
  | err e =>
      rw [handleInbound, hdecrypt]
      exact ⟨[], (List.append_nil _).symm, fun _ hmem => by cases hmem⟩
  | panic =>
      rw [handleInbound, hdecrypt]
      exact ⟨[], (List.append_nil _).symm, fun _ hmem => by cases hmem⟩

/-- The socket for a datagram, once it is bound. -/
theorem associate_ok (hbind : inbound.bind = .ok ()) (key : AssociationKey) (signWith : List UInt8)
    (counters : Handle) (s : UdpListener) :
    ∃ outbound s', (associate ctx key signWith counters inbound).run s = (.ok outbound, s') := by
  rw [associate, run_get_bind]
  dsimp only
  cases (s.associations.touch key inbound.touchAt).1 with
  | some association => exact ⟨_, _, rfl⟩
  | none =>
      rw [hbind]
      exact ⟨_, _, rfl⟩

/-- A destination is used. -/
theorem forward_sends {userId : Nat} {signWith : List UInt8} {counters : Handle}
    {target : Address} (payload : List UInt8) {contact : Contact}
    (hdest : udpDestination? target tables.policies[userId]? ctx.enforcement inbound.net =
      some contact) (hbind : inbound.bind = .ok ()) (hsend : inbound.send = .ok ())
    (s : UdpListener) :
    ∃ outbound s', (forward ctx tables userId signWith counters target payload inbound).run s =
      (.ok (), s') ∧ s'.log.getLast? = some (.send outbound contact payload) := by
  obtain ⟨hport, hresolve⟩ := (cleared_iff ctx tables inbound).mpr hdest
  have hscanned := associate_ok ctx inbound hbind ⟨inbound.peer, userId⟩ signWith counters
  rw [forward]
  dsimp only
  rw [hport, hresolve, hsend]
  simp only [Bool.false_eq_true, if_false, ofOutcome, pure_bind, perform, run_modify_bind]
  obtain ⟨outbound, s', hrun⟩ := hscanned _
  rw [run_bind, hrun]
  exact ⟨outbound, _, rfl, by simp⟩

theorem handleInbound_delivers {P : Primitives} {plain : List UInt8} {authenticated : Option Nat}
    (hdecrypt : udpDecryptPacket P ctx.masterKey tables.authUsers ctx.isMultiUser inbound.datagram
      ctx.cipherKind = .ok (plain, authenticated)) {counters : Handle}
    (hcounters : counters? ctx tables (authenticated.getD ctx.userId) = some counters)
    {target : Address} {consumed : Nat} (hparse : parse plain = .ok (some (target, consumed)))
    {contact : Contact}
    (hdest : udpDestination? target tables.policies[authenticated.getD ctx.userId]?
      ctx.enforcement inbound.net = some contact)
    (hbind : inbound.bind = .ok ()) (hsend : inbound.send = .ok ()) (s : UdpListener) :
    ∃ outbound s', (handleInbound P ctx tables inbound).run s = (.ok (), s') ∧
      s'.log.getLast? = some (.send outbound contact (plain.drop consumed)) := by
  have hlookup : lookupCounters ctx tables (authenticated.getD ctx.userId) = pure counters := by
    rw [counters?] at hcounters
    rw [lookupCounters]
    cases hown : tables.countersByUser[authenticated.getD ctx.userId]? with
    | some own =>
        rw [hown, Option.some_or] at hcounters
        cases hcounters
        rfl
    | none =>
        rw [hown, Option.none_or] at hcounters
        rw [hcounters]
  have hslice : (slice plain consumed plain.length : UdpTask (List UInt8)) =
      pure (plain.drop consumed) := by
    rw [slice_of_le (parse_le hparse) (Nat.le_refl _), window_to_end]
  rw [handleInbound_run ctx tables inbound hdecrypt, deliver, hlookup, pure_bind, hparse, ofOutcome]
  simp only [perform, run_modify_bind, pure_bind, hslice]
  exact forward_sends ctx tables inbound (plain.drop consumed) hdest hbind hsend _

end UdpListener

/-! ### Policies without a control -/

section Inert

variable {p : UserPolicy} (h : p.needsConnectionPolicy = false)

include h in
theorem inert_lists : p.connLimit = 0 ∧ p.forbiddenIps = [] ∧ p.forbiddenPorts = [] := by
  simpa [UserPolicy.needsConnectionPolicy, and_assoc] using h

include h in
theorem portCheck_inert (enforcement : EnforcementConfig) (port : UInt16) :
    portCheck (some p) enforcement port = portCheck none enforcement port := by
  simp [portCheck, UserPolicy.portForbidden, inert_lists h]

include h in
theorem ipCheck_inert (enforcement : EnforcementConfig) :
    ipCheck (some p) enforcement = ipCheck none enforcement := by
  simp [ipCheck, UserPolicy.hasForbiddenIp, inert_lists h]

theorem ipCheck_none (enforcement : EnforcementConfig) : ipCheck none enforcement = false := by
  simp [ipCheck]

include h in
theorem connectTargetChecked_inert (target : Address) (enforcement : EnforcementConfig)
    (net : Network) : connectTargetChecked target (some p) enforcement net =
      connectTargetChecked target none enforcement net := by
  simp only [connectTargetChecked, portCheck_inert h, ipCheck_inert h, ipCheck_none,
    Bool.false_eq_true, if_false]

include h in
theorem resolveUdpDest_inert (target : Address) (enforcement : EnforcementConfig)
    (net : Network) : resolveUdpDest target (some p) enforcement net =
      resolveUdpDest target none enforcement net := by
  simp only [resolveUdpDest, ipCheck_inert h, ipCheck_none, Bool.false_eq_true, if_false]

include h in
theorem acquireSlot_inert (ctx : StreamContext) (world : World) (userId : Nat) :
    Connection.acquireSlot ctx world userId (some p) =
      Connection.acquireSlot ctx world userId none := by
  simp [Connection.acquireSlot, inert_lists h]

end Inert

/-- The forbidden-target rule, on both relays, and the policies that make no difference to it. -/
theorem forbidden_targets_enforced (enforcement : EnforcementConfig)
    (h : enforcement.forbidden = true) :
    (∀ target policy net, TargetsEnforced target policy net enforcement) ∧
    (∀ P (ctx : UdpContext) tables inbound s, ctx.enforcement = enforcement →
      (∃ extra, ((UdpListener.handleInbound P ctx tables inbound).run s).2.log = s.log ++ extra ∧
        ∀ outbound contact payload, .send outbound contact payload ∈ extra →
          Permits tables.policies[UdpListener.realUserId ctx tables inbound P]? contact ∧
          ∃ target, udpDestination? target
            tables.policies[UdpListener.realUserId ctx tables inbound P]? enforcement
              inbound.net = some contact) ∧
      ∀ plain authenticated counters target consumed contact,
        udpDecryptPacket P ctx.masterKey tables.authUsers ctx.isMultiUser inbound.datagram
          ctx.cipherKind = .ok (plain, authenticated) →
        UdpListener.counters? ctx tables (authenticated.getD ctx.userId) = some counters →
        parse plain = .ok (some (target, consumed)) →
        udpDestination? target tables.policies[authenticated.getD ctx.userId]? enforcement
          inbound.net = some contact →
        inbound.bind = .ok () → inbound.send = .ok () →
        ∃ outbound s', (UdpListener.handleInbound P ctx tables inbound).run s = (.ok (), s') ∧
          s'.log.getLast? = some (.send outbound contact (plain.drop consumed))) ∧
    ∀ p : UserPolicy, p.needsConnectionPolicy = false → ∀ e : EnforcementConfig,
      (∀ target net, connectTargetChecked target (some p) e net =
        connectTargetChecked target none e net) ∧
      (∀ port, portCheck (some p) e port = portCheck none e port) ∧
      (∀ target net, resolveUdpDest target (some p) e net = resolveUdpDest target none e net) ∧
      ∀ ctx world userId, Connection.acquireSlot ctx world userId (some p) =
        Connection.acquireSlot ctx world userId none := by
  refine ⟨fun target policy net => targetsEnforced target policy net h, ?_, ?_⟩
  · rintro P ctx tables inbound s rfl
    refine ⟨?_, ?_⟩
    · obtain ⟨extra, hextra, hsent⟩ := UdpListener.handleInbound_sends ctx tables inbound P s
      refine ⟨extra, hextra, ?_⟩
      intro outbound contact payload hmem
      obtain ⟨target, hdest⟩ := hsent _ hmem
      exact ⟨(targetsEnforced target _ inbound.net h).destination contact hdest, target, hdest⟩
    · intro plain authenticated counters target consumed contact hdecrypt hcounters hparse hdest
        hbind hsend
      exact UdpListener.handleInbound_delivers ctx tables inbound hdecrypt hcounters hparse hdest
        hbind hsend s
  · intro p hp e
    exact ⟨fun target net => connectTargetChecked_inert hp target e net, portCheck_inert hp e,
      fun target net => resolveUdpDest_inert hp target e net, acquireSlot_inert hp⟩

def forbiddenOn : EnforcementConfig := ⟨true, false, false, false⟩

/-- Port 25 and the addresses from `10.0.0.0` to `10.255.255.255`. -/
def samplePolicy : UserPolicy := ⟨0, 0, [⟨.v4 #v[10, 0, 0, 0], 8, by decide⟩], [⟨25, 25⟩]⟩

def sampleNetwork : Network where
  resolve := .ok [.v4 #v[10, 1, 2, 3], .v4 #v[8, 8, 8, 8]]
  connectHost := .ok ()
  connect := fun _ => .ok ()

theorem sample_destination (host : String) :
    udpDestination? ⟨host, 80⟩ (some samplePolicy) forbiddenOn sampleNetwork =
      some (.addr ⟨.v4 #v[8, 8, 8, 8], 80⟩) := by
  have hport : samplePolicy.portForbidden 80 = false := by decide
  have hlist : samplePolicy.hasForbiddenIp = true := by decide
  have hinside : samplePolicy.ipForbidden (.v4 #v[10, 1, 2, 3]) = true := by decide
  have houtside : samplePolicy.ipForbidden (.v4 #v[8, 8, 8, 8]) = false := by decide
  simp [udpDestination?, resolveUdpDest, portCheck, ipCheck, Network.lookupHost, Except.map,
    sampleNetwork, forbiddenOn, hport, hlist, hinside, houtside]

theorem forbidden_targets_sample :
    (∀ contact ∈ (tcpAttempt ⟨"a.test", 80⟩ (some samplePolicy) forbiddenOn sampleNetwork).2,
      Permits (some samplePolicy) contact) ∧
    (∃ m, (tcpAttempt ⟨"a.test", 80⟩ (some samplePolicy) forbiddenOn sampleNetwork).2 =
      ((allowedAddrs ⟨"a.test", 80⟩ (some samplePolicy) sampleNetwork).take m).map Contact.addr) ∧
    (∃ outbound s', (UdpListener.handleInbound .standard
        { UdpListener.sampleUdp with enforcement := forbiddenOn }
        { UdpListener.sampleTables [1] with
          policies := (∅ : Std.HashMap Nat UserPolicy).insert 7 samplePolicy }
        { UdpListener.sampleInbound [1] with net := sampleNetwork }).run
          (UdpListener.start (UdpListener.sampleTables [1]) 60 10) = (.ok (), s') ∧
      s'.log.getLast? = some (.send outbound (.addr ⟨.v4 #v[8, 8, 8, 8], 80⟩) [])) ∧
    resolveUdpDest ⟨"a.test", 80⟩ (some ⟨9, 0, [], []⟩) forbiddenOn sampleNetwork =
      resolveUdpDest ⟨"a.test", 80⟩ none forbiddenOn sampleNetwork := by
  obtain ⟨htargets, hudp, hinert⟩ := forbidden_targets_enforced forbiddenOn rfl
  have hsample := htargets ⟨"a.test", 80⟩ (some samplePolicy) sampleNetwork
  obtain ⟨m, hm, -⟩ := hsample.inOrder (by decide) (by decide)
  refine ⟨hsample.contacts, ⟨m, hm⟩, ?_, (hinert ⟨9, 0, [], []⟩ (by decide) forbiddenOn).2.2.1 _ _⟩
  refine (hudp .standard { UdpListener.sampleUdp with enforcement := forbiddenOn } _ _ _ rfl).2
    UdpListener.samplePlain (some 7) 0 ⟨ipv4Text 127 0 0 1, 80⟩ 7 _
    (UdpListener.sample_decrypt [1]) ?_ ?_ ?_ rfl rfl
  · simp [UdpListener.counters?, UdpListener.sampleTables]
  · rw [parse_spec]
    rfl
  · have hpolicy : ((∅ : Std.HashMap Nat UserPolicy).insert 7 samplePolicy)[7]? =
        some samplePolicy := by simp
    rw [Option.getD_some, hpolicy]
    exact sample_destination _

end SsrBackend
