import SsrBackend.Foundation.Machine
import SsrBackend.Relay.Audit
import SsrBackend.Relay.Target
import SsrBackend.Relay.UserTables
import SsrBackend.Ssr.Session
import SsrBackend.Traffic.UserIpSet

/-!
One TCP connection: `handle_stream` of `tcp.rs` as a machine. The events are what
the sockets and the clock deliver, the phases are the places where the task
waits, and the log is what it has done: reads, records on the counter, scans,
contacts and writes, in order. A write that fails has passed on a part of its
bytes. Shared objects are read through the event that finds them.
-/

namespace SsrBackend

open Call

def maxHandshakeBytes : Nat := 64 * 1024

/-- `u64::saturating_add`. -/
def saturatingAdd (a b : Nat) : Nat := min (a + b) (2 ^ 64 - 1)

structure StreamContext where
  password : String
  fallbackUserId : Nat
  tables : UserTables
  enforcement : EnforcementConfig
  isMultiUser : Int
  cipherKind : CipherKind
  peerIp : String
  peer : String

/-- How a write of some bytes ends; a failed one has sent `sent` of them. -/
inductive Delivery where
  | done
  | failed (sent : Nat) (reason : String)
  | timedOut (sent : Nat)

/-- The shared objects at the moment of an event. -/
structure World where
  ips : Handle → UserIpSet
  rules : RuleSet

/-- What the sockets and the clock deliver. An empty read is the end of the stream.
The write of the initial payload is under no timeout: it may fail after some bytes. -/
inductive StreamEvent where
  | clientRead (chunk : List UInt8) (world : World) (write : Delivery)
  | clientFailed (reason : String)
  | connected (net : Network) (failure : Option (Nat × String))
  | remoteRead (chunk : List UInt8) (write : Delivery)
  | remoteFailed (reason : String)
  | idle

inductive StreamError where
  | handshakeIdle
  | io (reason : String)
  | codec (error : CodecError)
  | address (error : AddressError)
  | handshakeTooLong
  | noCounter (userId : Nat)
  | noConnectionCounter (userId : Nat)
  | detectRule
  | target (error : TargetError)
  | sessionIdle
  | remoteWriteIdle
  | clientWriteIdle
  deriving DecidableEq, Repr

/-- The text of an error; `idleTimeout` is the timeout as `{:?}` prints it. -/
def StreamError.message (idleTimeout : String) : StreamError → String
  | handshakeIdle => s!"ssr handshake idle timeout after {idleTimeout}"
  | io reason => reason
  | codec error => error.message
  | address error => error.message
  | handshakeTooLong =>
      s!"ssr handshake exceeded {maxHandshakeBytes} bytes without a valid address"
  | noCounter userId => s!"no traffic counter for authenticated user {userId}"
  | noConnectionCounter userId => s!"no connection counter for user {userId}"
  | detectRule => "connection dropped: initial payload matched a detect rule"
  | target error => error.message
  | sessionIdle => s!"tcp session idle timeout after {idleTimeout}"
  | remoteWriteIdle => s!"remote write idle timeout after {idleTimeout}"
  | clientWriteIdle => s!"client write idle timeout after {idleTimeout}"

/-- What the task does. A write hands `data` to the socket, which takes `sent` bytes of it. -/
inductive Action where
  | read (chunk : List UInt8)
  | recordUpload (counters : Handle) (bytes : Nat)
  | recordDownload (counters : Handle) (bytes : Nat)
  | takeSlot (ips : Handle) (ip : String)
  | emit (event : RelayEvent)
  | scan (rules : RuleSet) (data : List UInt8)
  | contact (contact : Contact)
  | acquire (limiter : Handle) (amount : Nat)
  | writeRemote (data : List UInt8) (sent : Nat)
  | writeClient (data : List UInt8) (sent : Nat)

/-- The handshake loop's variables. -/
structure Handshake where
  session : ServerSession
  appBuf : List UInt8
  preAuthUpload : Nat

/-- What is known of the client once its header is complete. -/
structure Served where
  userId : Nat
  counters : Handle
  limiter : Option Handle
  policy : Option UserPolicy

inductive StreamPhase where
  | handshake (h : Handshake)
  | connecting (session : ServerSession) (served : Served) (target : Address)
      (initial : List UInt8)
  | relay (session : ServerSession) (served : Served)
  | closed (result : Outcome StreamError Unit)

structure Connection where
  phase : StreamPhase
  log : List Action

/-- Code of the task: it appends to the log and may return an error. -/
abbrev StreamTask (α : Type) : Type := Call StreamError (List Action) α

namespace StreamTask

def perform (action : Action) : StreamTask Unit := modify fun log => log ++ [action]

/-- A result of another layer, with `?`. -/
def lift {ε α : Type} (wrap : ε → StreamError) : Outcome ε α → StreamTask α
  | .ok a => pure a
  | .err e => bail (wrap e)
  | .panic => MonadPanic.panic

/-- `write_all` to the target, within the idle timeout. -/
def writeRemote (data : List UInt8) : Delivery → StreamTask Unit
  | .done => perform (.writeRemote data data.length)
  | .failed sent reason => do
      perform (.writeRemote data sent)
      bail (.io reason)
  | .timedOut sent => do
      perform (.writeRemote data sent)
      bail .remoteWriteIdle

def writeClient (data : List UInt8) : Delivery → StreamTask Unit
  | .done => perform (.writeClient data data.length)
  | .failed sent reason => do
      perform (.writeClient data sent)
      bail (.io reason)
  | .timedOut sent => do
      perform (.writeClient data sent)
      bail .clientWriteIdle

/-- `if let Some(l) = &limiter { l.acquire(n).await }`. -/
def throttle (limiter : Option Handle) (amount : Nat) : StreamTask Unit :=
  match limiter with
  | some limiter => perform (.acquire limiter amount)
  | none => pure ()

end StreamTask

namespace Connection

open StreamTask

variable (P : Primitives)

/-- The counter of the user, or else that of the port. -/
def lookupCounters (ctx : StreamContext) (userId : Nat) : StreamTask Handle :=
  match ctx.tables.countersByUser[userId]? with
  | some counters => pure counters
  | none =>
      match ctx.tables.countersByUser[ctx.fallbackUserId]? with
      | some counters => pure counters
      | none => bail (.noCounter userId)

/-- The device limit. `false` drops the connection. -/
def acquireSlot (ctx : StreamContext) (world : World) (userId : Nat)
    (policy : Option UserPolicy) : StreamTask Bool :=
  match policy with
  | none => pure true
  | some policy =>
      if ctx.enforcement.connLimit ∧ 0 < policy.connLimit then
        match ctx.tables.connsByUser[userId]? with
        | none => bail (.noConnectionCounter userId)
        | some set =>
            match ConnGuard.acquire (world.ips set) ctx.peerIp policy.connLimit with
            | none => pure false
            | some _ => do
                perform (.takeSlot set ctx.peerIp)
                pure true
      else pure true

/-- The connect event, and the scan of the payload that came with the header. -/
def auditInitial (ctx : StreamContext) (world : World) (userId : Nat) (initial : List UInt8) :
    StreamTask Bool := do
  let auditor := ConnectionAuditor.new userId ctx.peerIp ctx.peer
  perform (.emit auditor.reportConnect)
  let result := auditor.scan world.rules initial
  perform (.scan world.rules initial)
  modify fun log => log ++ result.events.map Action.emit
  return result.matchedNow

/-- The audit of the initial payload, and the drop when it matches. -/
def auditTurn (ctx : StreamContext) (world : World) (session : ServerSession) (served : Served)
    (target : Address) (initial : List UInt8) : StreamTask StreamPhase := do
  if (← auditInitial ctx world served.userId initial) && ctx.enforcement.auditBlock then
    bail .detectRule
  else
    return .connecting session served target initial

/-- From the complete address header to the connect. -/
def authenticated (ctx : StreamContext) (world : World) (session : ServerSession)
    (target : Address) (initial : List UInt8) (preAuthUpload : Nat) : StreamTask StreamPhase := do
  let userId := session.userId.getD ctx.fallbackUserId
  let counters ← lookupCounters ctx userId
  perform (.recordUpload counters preAuthUpload)
  let policy := ctx.tables.policies[userId]?
  let limiter := if ctx.enforcement.speed then ctx.tables.speedsByUser[userId]? else none
  if ← acquireSlot ctx world userId policy then
    auditTurn ctx world session ⟨userId, counters, limiter, policy⟩ target initial
  else
    return .closed (.ok ())

/-- One turn of the handshake loop. -/
def handshakeTurn (ctx : StreamContext) (h : Handshake) (chunk : List UInt8) (world : World) :
    StreamTask StreamPhase := do
  if chunk = [] then
    return .closed (.ok ())
  else
    perform (.read chunk)
    let preAuthUpload := saturatingAdd h.preAuthUpload chunk.length
    let call := (ServerSession.decrypt P chunk).run h.session
    let decoded ← lift .codec call.1
    if decoded = [] then
      return .handshake ⟨call.2, h.appBuf, preAuthUpload⟩
    else
      let appBuf := h.appBuf ++ decoded
      match ← lift .address (parse appBuf) with
      | some (target, consumed) =>
          let initial ← slice appBuf consumed appBuf.length
          authenticated ctx world call.2 target initial preAuthUpload
      | none =>
          if maxHandshakeBytes < appBuf.length then
            bail .handshakeTooLong
          else
            return .handshake ⟨call.2, appBuf, preAuthUpload⟩

/-- `write_all` outside a timeout. -/
def initialDelivery : Option (Nat × String) → Delivery
  | none => .done
  | some (sent, reason) => .failed sent reason

/-- The connect to the target and the write of the initial payload. -/
def connectTurn (ctx : StreamContext) (session : ServerSession) (served : Served)
    (target : Address) (initial : List UInt8) (net : Network) (failure : Option (Nat × String)) :
    StreamTask StreamPhase := do
  let attempt := (connectTargetChecked target served.policy ctx.enforcement net).run []
  modify fun log => log ++ attempt.2.map Action.contact
  let _ ← lift .target attempt.1
  if initial = [] then
    return .relay session served
  else
    throttle served.limiter initial.length
    writeRemote initial (initialDelivery failure)
    return .relay session served

/-- The relay's arm for bytes from the client. -/
def clientTurn (session : ServerSession) (served : Served) (chunk : List UInt8)
    (write : Delivery) : StreamTask StreamPhase := do
  if chunk = [] then
    return .closed (.ok ())
  else
    perform (.read chunk)
    perform (.recordUpload served.counters chunk.length)
    let call := (ServerSession.decrypt P chunk).run session
    let data ← lift .codec call.1
    if data = [] then
      return .relay call.2 served
    else
      throttle served.limiter data.length
      writeRemote data write
      return .relay call.2 served

/-- The relay's arm for bytes from the target. -/
def remoteTurn (session : ServerSession) (served : Served) (chunk : List UInt8)
    (write : Delivery) : StreamTask StreamPhase := do
  if chunk = [] then
    return .closed (.ok ())
  else
    let call := (ServerSession.encrypt P chunk).run session
    let wire ← lift .codec call.1
    perform (.recordDownload served.counters wire.length)
    throttle served.limiter wire.length
    writeClient wire write
    return .relay call.2 served

/-- The task at one of its waiting places, with the event that ends the wait. An
event the place does not wait for leaves it where it is. -/
def turn (ctx : StreamContext) : StreamPhase → StreamEvent → StreamTask StreamPhase
  | .handshake h, .clientRead chunk world _ => handshakeTurn P ctx h chunk world
  | .handshake _, .clientFailed reason => bail (.io reason)
  | .handshake _, .idle => bail .handshakeIdle
  | .connecting session served target initial, .connected net failure =>
      connectTurn ctx session served target initial net failure
  | .relay session served, .clientRead chunk _ write => clientTurn P session served chunk write
  | .relay session served, .remoteRead chunk write => remoteTurn P session served chunk write
  | .relay _ _, .clientFailed reason => bail (.io reason)
  | .relay _ _, .remoteFailed reason => bail (.io reason)
  | .relay _ _, .idle => bail .sessionIdle
  | phase, _ => pure phase

/-- The end of a turn; `?` closes the connection. -/
def settle : Outcome StreamError StreamPhase × List Action → Connection
  | (.ok phase, log) => ⟨phase, log⟩
  | (.err e, log) => ⟨.closed (.err e), log⟩
  | (.panic, log) => ⟨.closed .panic, log⟩

def step (ctx : StreamContext) (c : Connection) (event : StreamEvent) : Connection :=
  settle ((turn P ctx c.phase event).run c.log)

/-- The task before its first read, with the session it has made. -/
def start (session : ServerSession) : Connection := ⟨.handshake ⟨session, [], 0⟩, []⟩

/-- `handle_stream` over the events of a connection. -/
def handleStream (ctx : StreamContext) (getrandom : GetRandom) (events : List StreamEvent) :
    Outcome CodecError Connection :=
  match ServerSession.new P ctx.password ctx.tables.authUsers ctx.isMultiUser ctx.cipherKind
      getrandom with
  | .ok session => .ok (Machine.run (step P ctx) (start session) events)
  | .err e => .err e
  | .panic => .panic

end Connection

end SsrBackend
