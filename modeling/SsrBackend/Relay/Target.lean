import SsrBackend.Relay.Policy

/-!
The forbidden-target checks of the two relays: `connect_target_checked` of
`tcp.rs`, and the port check of `handle_inbound` with `resolve_udp_dest` of
`udp.rs`. What the network answers is an argument, and every address or host that
is contacted is logged in order. `lookup_host` puts the asked port into each
address it returns.
-/

namespace SsrBackend

open Call

structure SocketAddr where
  ip : IpAddr
  port : UInt16

/-- Whom the relay contacts: an address it has checked, or a name the system resolves. -/
inductive Contact where
  | addr (addr : SocketAddr)
  | hostPort (host : String) (port : UInt16)

/-- The answers of the network: the resolver's addresses for the target, the
connect to the unresolved target, and the connects to single addresses in turn. -/
structure Network where
  resolve : Except String (List IpAddr)
  connectHost : Except String Unit
  connect : Nat → Except String Unit

inductive TargetError where
  | portForbidden (port : UInt16)
  | resolving (host : String) (port : UInt16) (reason : String)
  | didNotResolve (host : String) (port : UInt16)
  | onlyForbidden (host : String) (port : UInt16)
  | connectingTo (host : String) (port : UInt16) (reason : String)
  | connectFailed (reason : String)
  deriving DecidableEq, Repr

def TargetError.message : TargetError → String
  | portForbidden port => s!"target port {port} is forbidden for this user"
  | resolving host port reason => s!"resolving {host}:{port}: {reason}"
  | didNotResolve host port => s!"target {host}:{port} did not resolve"
  | onlyForbidden host port => s!"target {host}:{port} resolves only to forbidden addresses"
  | connectingTo host port reason => s!"connecting to {host}:{port}: {reason}"
  | connectFailed reason => reason

/-- `lookup_host((host, port))`. -/
def Network.lookupHost (net : Network) (port : UInt16) : Except String (List SocketAddr) :=
  net.resolve.map fun ips => ips.map fun ip => ⟨ip, port⟩

/-- The user has a list of forbidden addresses and it is enforced. -/
def ipCheck (policy : Option UserPolicy) (enforcement : EnforcementConfig) : Bool :=
  enforcement.forbidden && policy.any UserPolicy.hasForbiddenIp

/-- The policy forbids the port and this is enforced. -/
def portCheck (policy : Option UserPolicy) (enforcement : EnforcementConfig) (port : UInt16) :
    Bool :=
  enforcement.forbidden && policy.any fun policy => policy.portForbidden port

/-- The loop over the allowed addresses: attempt `k` and those behind it. -/
def connectLoop (connect : Nat → Except String Unit) (target : Address) :
    Nat → Option String → List SocketAddr → Call TargetError (List Contact) Contact
  | _, lastErr, [] => do
      bail (.connectingTo target.host target.port (← expect lastErr))
  | k, _, addr :: rest => do
      modify fun log => log ++ [.addr addr]
      match connect k with
      | .ok () => return .addr addr
      | .error reason => connectLoop connect target (k + 1) (some reason) rest

def connectTargetChecked (target : Address) (policy : Option UserPolicy)
    (enforcement : EnforcementConfig) (net : Network) :
    Call TargetError (List Contact) Contact := do
  if portCheck policy enforcement target.port then
    bail (.portForbidden target.port)
  if ipCheck policy enforcement then
    let policy ← expect policy
    match net.lookupHost target.port with
    | .error reason => bail (.resolving target.host target.port reason)
    | .ok resolved =>
        if resolved = [] then
          bail (.didNotResolve target.host target.port)
        let allowed := resolved.filter fun addr => !policy.ipForbidden addr.ip
        if allowed = [] then
          bail (.onlyForbidden target.host target.port)
        connectLoop net.connect target 0 none allowed
  else
    modify fun log => log ++ [.hostPort target.host target.port]
    match net.connectHost with
    | .ok () => return .hostPort target.host target.port
    | .error reason => bail (.connectFailed reason)

inductive UdpTargetError where
  | resolving (host : String) (port : UInt16) (reason : String)
  | didNotResolve (host : String) (port : UInt16)
  | onlyForbidden (host : String) (port : UInt16)
  deriving DecidableEq, Repr

def UdpTargetError.message : UdpTargetError → String
  | resolving host port reason => s!"resolving {host}:{port}: {reason}"
  | didNotResolve host port => s!"udp target {host}:{port} did not resolve"
  | onlyForbidden host port => s!"udp target {host}:{port} resolves only to forbidden addresses"

def resolveUdpDest (target : Address) (policy : Option UserPolicy)
    (enforcement : EnforcementConfig) (net : Network) : Outcome UdpTargetError Contact := do
  if ipCheck policy enforcement then
    let policy ← expect policy
    match net.lookupHost target.port with
    | .error reason => Outcome.err (.resolving target.host target.port reason)
    | .ok resolved =>
        if resolved = [] then
          Outcome.err (.didNotResolve target.host target.port)
        else
          match resolved.find? fun addr => !policy.ipForbidden addr.ip with
          | some addr => return .addr addr
          | none => Outcome.err (.onlyForbidden target.host target.port)
  else
    return .hostPort target.host target.port

/-- What a pass over the addresses comes to: `m` of them are tried, all but the last
without success, and the last one succeeds unless none is left. -/
structure Tried (connect : Nat → Except String Unit) (k : Nat) (addrs : List SocketAddr)
    (m : Nat) (o : Outcome TargetError Contact) : Prop where
  le : m ≤ addrs.length
  before : ∀ i, i + 1 < m → ∃ reason, connect (k + i) = .error reason
  last : (∃ i addr, m = i + 1 ∧ connect (k + i) = .ok () ∧ addrs[i]? = some addr ∧
      o = .ok (.addr addr)) ∨
    m = addrs.length ∧ (∀ i < m, ∃ reason, connect (k + i) = .error reason) ∧
      ∃ host port reason, o = .err (.connectingTo host port reason)

theorem connectLoop_run (connect : Nat → Except String Unit) (target : Address) (k : Nat)
    (lastErr : Option String) (addrs : List SocketAddr) (h : addrs = [] → lastErr.isSome = true)
    (log : List Contact) :
    ∃ m o, (connectLoop connect target k lastErr addrs).run log =
      (o, log ++ (addrs.take m).map Contact.addr) ∧ Tried connect k addrs m o := by
  induction addrs generalizing k lastErr log with
  | nil =>
      obtain ⟨reason, rfl⟩ := Option.isSome_iff_exists.mp (h rfl)
      refine ⟨0, .err (.connectingTo target.host target.port reason), ?_, ?_⟩
      · rw [List.take_nil, List.map_nil, List.append_nil]
        rfl
      · exact ⟨Nat.le_refl _, by intro i hi; omega, Or.inr ⟨rfl, by intro i hi; omega,
          _, _, _, rfl⟩⟩
  | cons addr rest ih =>
      cases hc : connect k with
      | ok _ =>
          refine ⟨1, .ok (.addr addr), ?_, ?_⟩
          · simp only [connectLoop, Call.run_modify_bind, hc]
            rfl
          · exact ⟨by simp, by intro i hi; omega, Or.inl ⟨0, addr, rfl, hc, rfl, rfl⟩⟩
      | error reason =>
          obtain ⟨m, o, hrun, htried⟩ := ih (k + 1) (some reason) (fun _ => rfl)
            (log ++ [.addr addr])
          have hshift (i : Nat) : k + 1 + i = k + (i + 1) := by omega
          refine ⟨m + 1, o, ?_, ?_⟩
          · simp only [connectLoop, Call.run_modify_bind, hc]
            rw [hrun, List.take_succ_cons, List.map_cons, List.append_assoc, List.singleton_append]
          · refine ⟨by have := htried.le; simpa using this, ?_, ?_⟩
            · intro i hi
              cases i with
              | zero => exact ⟨reason, hc⟩
              | succ i =>
                  rw [← hshift]
                  exact htried.before i (by omega)
            · rcases htried.last with ⟨i, found, hm, hok, hget, ho⟩ | ⟨hm, hall, hend⟩
              · refine Or.inl ⟨i + 1, found, by omega, ?_, hget, ho⟩
                rw [← hshift]
                exact hok
              · refine Or.inr ⟨by rw [List.length_cons, hm], ?_, hend⟩
                intro i hi
                cases i with
                | zero => exact ⟨reason, hc⟩
                | succ i =>
                    rw [← hshift]
                    exact hall i (by omega)

section Checked

variable (target : Address) (policy : Option UserPolicy) (enforcement : EnforcementConfig)
  (net : Network)

/-- The addresses of the resolver that the policy allows, in its order. -/
def allowedAddrs : List SocketAddr :=
  match net.lookupHost target.port with
  | .error _ => []
  | .ok resolved => resolved.filter fun addr => !policy.any fun policy => policy.ipForbidden addr.ip

variable {target policy enforcement net}

/-- The checked connect once the target has resolved: no allowed address, or the loop over them. -/
theorem connectTargetChecked_resolved {p : UserPolicy} {resolved : List SocketAddr}
    (hport : portCheck (some p) enforcement target.port = false)
    (hip : ipCheck (some p) enforcement = true) (hl : net.lookupHost target.port = .ok resolved)
    (log : List Contact) :
    ∃ o contacts, (connectTargetChecked target (some p) enforcement net).run log =
        (o, log ++ contacts) ∧ o ≠ .panic ∧
      ((allowedAddrs target (some p) net = [] ∧ contacts = [] ∧ ∃ e, o = .err e) ∨
        ∃ m, 0 < m ∧ contacts = ((allowedAddrs target (some p) net).take m).map Contact.addr ∧
          Tried net.connect 0 (allowedAddrs target (some p) net) m o) := by
  have hallowed : allowedAddrs target (some p) net =
      resolved.filter fun addr => !p.ipForbidden addr.ip := by
    simp [allowedAddrs, hl]
  rw [hallowed]
  unfold connectTargetChecked
  simp only [hport, hip, hl, Bool.false_eq_true, ite_false, ite_true, expect_some, pure_bind]
  by_cases hnone : resolved = []
  · subst hnone
    refine ⟨.err (.didNotResolve target.host target.port), [], ?_, by simp,
      Or.inl ⟨rfl, rfl, _, rfl⟩⟩
    rw [List.append_nil]
    rfl
  · by_cases hempty : (resolved.filter fun addr => !p.ipForbidden addr.ip) = []
    · refine ⟨.err (.onlyForbidden target.host target.port), [], ?_, by simp,
        Or.inl ⟨hempty, rfl, _, rfl⟩⟩
      rw [List.append_nil]
      simp only [if_neg hnone, if_pos hempty, bail_bind]
      rfl
    · obtain ⟨m, o, hrun, htried⟩ := connectLoop_run net.connect target 0 none
        (resolved.filter fun addr => !p.ipForbidden addr.ip) (fun h => absurd h hempty) log
      have hpos : 0 < m := by
        rcases htried.last with ⟨i, _, hm, _⟩ | ⟨hm, _⟩
        · omega
        · rw [hm]
          exact List.length_pos_iff.mpr hempty
      refine ⟨o, _, ?_, ?_, Or.inr ⟨m, hpos, rfl, htried⟩⟩
      · simp only [if_neg hnone, if_neg hempty]
        exact hrun
      · rcases htried.last with ⟨_, _, _, _, _, rfl⟩ | ⟨_, _, _, _, _, rfl⟩
        · simp
        · simp

variable (target policy enforcement net)

/-- How the checked connect ends, and what it has contacted. -/
theorem connectTargetChecked_run (log : List Contact) :
    ∃ o contacts, (connectTargetChecked target policy enforcement net).run log =
        (o, log ++ contacts) ∧ o ≠ .panic ∧
      ((portCheck policy enforcement target.port = true ∧ contacts = [] ∧
          o = .err (.portForbidden target.port)) ∨
        (portCheck policy enforcement target.port = false ∧
          ((ipCheck policy enforcement = false ∧ contacts = [.hostPort target.host target.port]) ∨
          (ipCheck policy enforcement = true ∧ allowedAddrs target policy net = [] ∧
            contacts = [] ∧ ∃ e, o = .err e) ∨
          (ipCheck policy enforcement = true ∧ ∃ m, 0 < m ∧
            contacts = ((allowedAddrs target policy net).take m).map Contact.addr ∧
            Tried net.connect 0 (allowedAddrs target policy net) m o)))) := by
  cases hport : portCheck policy enforcement target.port with
  | true =>
      unfold connectTargetChecked
      rw [hport]
      exact ⟨_, [], by rw [List.append_nil]; rfl, by simp, Or.inl ⟨rfl, rfl, rfl⟩⟩
  | false =>
      cases hip : ipCheck policy enforcement with
      | false =>
          unfold connectTargetChecked
          rw [hport, hip]
          cases hc : net.connectHost with
          | ok _ => exact ⟨.ok _, _, rfl, by simp, Or.inr ⟨rfl, Or.inl ⟨rfl, rfl⟩⟩⟩
          | error reason => exact ⟨.err _, _, rfl, by simp, Or.inr ⟨rfl, Or.inl ⟨rfl, rfl⟩⟩⟩
      | true =>
          obtain ⟨p, rfl⟩ : ∃ p, policy = some p := by
            cases policy with
            | none => simp [ipCheck] at hip
            | some p => exact ⟨p, rfl⟩
          cases hl : net.lookupHost target.port with
          | error reason =>
              unfold connectTargetChecked
              rw [hport, hip, hl]
              refine ⟨.err (.resolving target.host target.port reason), [],
                by rw [List.append_nil]; rfl, by simp, Or.inr ⟨rfl, Or.inr (Or.inl ⟨rfl, ?_, rfl,
                  _, rfl⟩)⟩⟩
              simp [allowedAddrs, hl]
          | ok resolved =>
              obtain ⟨o, contacts, hrun, hpanic, hend⟩ :=
                connectTargetChecked_resolved hport hip hl log
              refine ⟨o, contacts, hrun, hpanic, Or.inr ⟨rfl, Or.inr ?_⟩⟩
              cases hend with
              | inl hnone => exact Or.inl ⟨rfl, hnone⟩
              | inr htried => exact Or.inr ⟨rfl, htried⟩

end Checked

end SsrBackend
