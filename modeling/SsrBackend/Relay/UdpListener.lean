import SsrBackend.Foundation.Machine
import SsrBackend.Relay.Audit
import SsrBackend.Relay.Target
import SsrBackend.Relay.UserTables
import SsrBackend.Runtime.BoundedTtlMap
import SsrBackend.Ssr.UdpPacket

/-!
The UDP listener of a port: `run_listener`, `handle_inbound` and the response
pumps of `udp.rs` as one machine. The events are datagrams from clients, answers
of targets, new tables from the supervisor and the end of a task; what the network
and the clocks say while a datagram is handled comes with it. A pump's turn, from
the receipt of an answer to its send, is one step, and a pump ends with its
association.
-/

namespace SsrBackend

open Call

deriving instance DecidableEq for IpAddr

instance : Hashable IpAddr where
  hash
    | .v4 octets => hash octets.toList
    | .v6 octets => hash octets.toList

deriving instance DecidableEq, Hashable for SocketAddr

structure AssociationKey where
  peer : SocketAddr
  userId : Nat
  deriving DecidableEq, Hashable

/-- An outbound socket, by its number, and what its pump was spawned with. -/
structure Association where
  outbound : Nat
  masterKey : List UInt8
  responseKey : List UInt8
  counters : Handle
  peer : SocketAddr
  cipherKind : CipherKind

/-- The arguments of `run_listener` that `handle_inbound` reads. -/
structure UdpContext where
  userId : Nat
  masterKey : List UInt8
  enforcement : EnforcementConfig
  isMultiUser : Int
  cipherKind : CipherKind

inductive UdpError where
  | codec (error : CodecError)
  | noCounter (userId : Nat)
  | address (error : AddressError)
  | incompleteAddress
  | portForbidden (port : UInt16) (userId : Nat)
  | target (error : UdpTargetError)
  | io (reason : String)
  deriving DecidableEq, Repr

def UdpError.message : UdpError → String
  | codec error => error.message
  | noCounter userId => s!"no traffic counter for UDP user {userId}"
  | address error => error.message
  | incompleteAddress => "udp address header incomplete"
  | portForbidden port userId => s!"udp target port {port} forbidden for user {userId}"
  | target error => error.message
  | io reason => reason

/-- What the listener and its pumps have done. `verified` is a datagram that has passed the
codec, with the key that its responses are to be signed with. -/
inductive UdpAction where
  | verified (key : AssociationKey) (responseKey : List UInt8)
  | recordUpload (counters : Handle) (bytes : Nat)
  | recordDownload (counters : Handle) (bytes : Nat)
  | emit (event : RelayEvent)
  | scan (rules : RuleSet) (data : List UInt8)
  | send (outbound : Nat) (contact : Contact) (payload : List UInt8)
  | respond (peer : SocketAddr) (userId : Nat) (responseKey : List UInt8) (packet : List UInt8)

/-- A datagram, with what the clocks and the network say while it is handled. -/
structure Inbound where
  datagram : List UInt8
  peer : SocketAddr
  peerIp : String
  peerText : String
  expireAt : Nat
  touchAt : Nat
  insertAt : Nat
  rules : RuleSet
  net : Network
  bind : Except String Unit
  send : Except String Unit
  walk : Walk (AssociationKey × Entry Association)

structure UdpListener where
  tables : UserTables
  associations : BoundedTtlMap AssociationKey Association
  nextSocket : Nat
  endedPumps : List Nat
  stopped : Bool
  log : List UdpAction

inductive UdpEvent where
  | republish (tables : UserTables)
  | datagram (inbound : Inbound)
  | response (key : AssociationKey) (source : SocketAddr) (data : List UInt8)
      (getrandom : GetRandom) (sent : Bool)
  | pumpFailed (key : AssociationKey)
  | stop

abbrev UdpTask (α : Type) : Type := Call UdpError UdpListener α

namespace UdpListener

variable (P : Primitives)

def perform (action : UdpAction) : UdpTask Unit :=
  modify fun s => { s with log := s.log ++ [action] }

/-- The key of the responses to a user, or to a client without one. -/
def responseKey (ctx : UdpContext) (tables : UserTables) : Option Nat → List UInt8
  | some uid => (tables.authUsers[uid]?).getD ctx.masterKey
  | none => ctx.masterKey

def lookupCounters (ctx : UdpContext) (tables : UserTables) (userId : Nat) : UdpTask Handle :=
  match tables.countersByUser[userId]? with
  | some counters => pure counters
  | none =>
      match tables.countersByUser[ctx.userId]? with
      | some counters => pure counters
      | none => bail (.noCounter userId)

/-- The association of the client, touched, or else a new one with its pump. -/
def associate (ctx : UdpContext) (key : AssociationKey) (signWith : List UInt8)
    (counters : Handle) (inbound : Inbound) : UdpTask Nat := do
  let s ← get
  let touched := s.associations.touch key inbound.touchAt
  match touched.1 with
  | some association =>
      modify fun s => { s with associations := touched.2 }
      return association.outbound
  | none =>
      perform (.emit (.connect key.userId inbound.peerIp inbound.peerText))
      match inbound.bind with
      | .error reason => bail (.io reason)
      | .ok () =>
          let association : Association :=
            ⟨s.nextSocket, ctx.masterKey, signWith, counters, inbound.peer, ctx.cipherKind⟩
          modify fun s => { s with
            associations := s.associations.insert key association inbound.insertAt inbound.walk
            nextSocket := s.nextSocket + 1 }
          return s.nextSocket

/-- From the target of a datagram to its send. -/
def forward (ctx : UdpContext) (tables : UserTables) (userId : Nat) (signWith : List UInt8)
    (counters : Handle) (target : Address) (payload : List UInt8) (inbound : Inbound) :
    UdpTask Unit := do
  let policy := tables.policies[userId]?
  if portCheck policy ctx.enforcement target.port then
    bail (.portForbidden target.port userId)
  else
    perform (.scan inbound.rules payload)
    let hits := (scanPayload inbound.rules userId inbound.peerIp payload).2
    modify fun s => { s with log := s.log ++ hits.map UdpAction.emit }
    let dest ← ofOutcome .target (resolveUdpDest target policy ctx.enforcement inbound.net)
    let outbound ← associate ctx ⟨inbound.peer, userId⟩ signWith counters inbound
    match inbound.send with
    | .error reason => bail (.io reason)
    | .ok () => perform (.send outbound dest payload)

/-- From a verified datagram to its target. -/
def deliver (ctx : UdpContext) (tables : UserTables) (userId : Nat) (signWith plain : List UInt8)
    (inbound : Inbound) : UdpTask Unit := do
  let counters ← lookupCounters ctx tables userId
  perform (.recordUpload counters inbound.datagram.length)
  match ← ofOutcome .address (parse plain) with
  | none => bail .incompleteAddress
  | some (target, consumed) =>
      let payload ← slice plain consumed plain.length
      forward ctx tables userId signWith counters target payload inbound

def handleInbound (ctx : UdpContext) (tables : UserTables) (inbound : Inbound) : UdpTask Unit := do
  let (plain, authenticated) ← ofOutcome .codec (udpDecryptPacket P ctx.masterKey tables.authUsers
    ctx.isMultiUser inbound.datagram ctx.cipherKind)
  let userId := authenticated.getD ctx.userId
  let signWith := responseKey ctx tables authenticated
  perform (.verified ⟨inbound.peer, userId⟩ signWith)
  deliver ctx tables userId signWith plain inbound

/-- A turn of the pump of an association; a response that cannot be encrypted is skipped. -/
def pumpTurn (s : UdpListener) (key : AssociationKey) (association : Association)
    (source : SocketAddr) (data : List UInt8) (getrandom : GetRandom) (sent : Bool) :
    UdpListener :=
  let header := packSocketAddr source.ip source.port ++ data
  match udpEncryptPacket P association.masterKey association.responseKey header
      association.cipherKind getrandom with
  | .ok packet =>
      let recorded := { s with
        log := s.log ++ [UdpAction.recordDownload association.counters packet.length] }
      if sent then { recorded with log := recorded.log ++
        [UdpAction.respond association.peer key.userId association.responseKey packet] }
      else { recorded with endedPumps := association.outbound :: s.endedPumps }
  | .err _ => s
  | .panic => { s with endedPumps := association.outbound :: s.endedPumps }

/-- Only the pump of an association of the map runs. -/
def pumpOf? (s : UdpListener) (key : AssociationKey) : Option Association :=
  (s.associations.value? key).filter fun association => association.outbound ∉ s.endedPumps

/-- The end of `run_listener`, which drops the associations. -/
def close (s : UdpListener) : UdpListener :=
  { s with stopped := true, associations := s.associations.retain fun _ _ => false }

def step (ctx : UdpContext) (s : UdpListener) : UdpEvent → UdpListener
  | .republish tables => { s with tables := tables }
  | .datagram inbound =>
      if s.stopped then s
      else
        let expired := { s with associations := s.associations.expire inbound.expireAt }
        match (handleInbound P ctx s.tables inbound).run expired with
        | (.panic, s') => s'.close
        | (_, s') => s'
  | .response key source data getrandom sent =>
      match s.pumpOf? key with
      | some association => pumpTurn P s key association source data getrandom sent
      | none => s
  | .pumpFailed key =>
      match s.pumpOf? key with
      | some association => { s with endedPumps := association.outbound :: s.endedPumps }
      | none => s
  | .stop => s.close

/-- The listener before its first datagram. -/
def start (tables : UserTables) (associationTtl maxAssociations : Nat) : UdpListener :=
  ⟨tables, .new associationTtl (max maxAssociations 1), 0, [], false, []⟩

end UdpListener

end SsrBackend
