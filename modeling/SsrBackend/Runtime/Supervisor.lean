import SsrBackend.Relay.UserTables
import SsrBackend.Runtime.BoundedTtlMap
import SsrBackend.Runtime.PanelUser
import SsrBackend.Ssr.UdpPacket
import SsrBackend.Traffic.Ledger

/-!
The runtime of `runtime/supervisor.rs` and its `sync_users`. A listener task is
its number and what it was spawned with; spawns and stops are logged in order, and
the supervisor sees nothing else of a task. How a row's limits are parsed is the
argument `fromUser`. The carrier rows that are kept come out of a hash map in no
fixed order; each port occurs once among them, and they are kept in list order.
-/

namespace SsrBackend

open Call

structure LimitsConfig where
  maxUsers : Nat
  maxSessions : Nat
  sessionTtlSecs : Nat
  maxAliveIps : Nat
  aliveIpTtlSecs : Nat
  maxDetectLogs : Nat
  detectLogTtlSecs : Nat

structure Config where
  node : NodeConfig
  limits : LimitsConfig

/-- The socket-level configuration of a listener. -/
structure UserFingerprint where
  port : UInt16
  password : String
  profile : Profile
  isMultiUser : Int
  deriving DecidableEq, Repr

inductive ListenerKind where
  | tcp
  | udp
  deriving DecidableEq, Repr

/-- A spawned listener, with the arguments of `spawn_user_listener`. -/
structure ListenerTask where
  id : Nat
  kind : ListenerKind
  userId : Nat
  port : UInt16
  password : String
  profile : Profile
  enforcement : EnforcementConfig
  isMultiUser : Int

/-- A spawn, or the stop of a task of a port. -/
inductive ListenerAction where
  | spawn (task : ListenerTask)
  | stop (port : UInt16) (task : ListenerTask)

def ListenerAction.port : ListenerAction → UInt16
  | spawn task => task.port
  | stop port _ => port

structure ActiveUser where
  fingerprint : UserFingerprint
  tcp : Option ListenerTask
  udp : Option ListenerTask

def ActiveUser.tasks (active : ActiveUser) : List ListenerTask :=
  active.tcp.toList ++ active.udp.toList

/-- `ActiveUser::stop` of the entry of a port. -/
def ActiveUser.stop (active : ActiveUser) (port : UInt16) : List ListenerAction :=
  active.tasks.map (ListenerAction.stop port)

structure AliveIpKey where
  userId : Nat
  ip : String
  deriving DecidableEq, Hashable, Repr

structure DetectLogKey where
  userId : Nat
  listId : Nat
  ip : String
  deriving DecidableEq, Hashable, Repr

structure SessionKey where
  userId : Nat
  peer : String
  deriving DecidableEq, Hashable, Repr

structure DetectLogReport where
  userId : Nat
  listId : Nat
  deriving DecidableEq, Repr

structure BackendRuntime where
  config : Config
  traffic : TrafficLedger
  conns : ConnLedger
  speeds : SpeedLedger
  activeUsers : Std.HashMap UInt16 ActiveUser
  sessions : BoundedTtlMap SessionKey Unit
  aliveIps : BoundedTtlMap AliveIpKey Unit
  detectLogs : BoundedTtlMap DetectLogKey DetectLogReport
  tables : UserTables
  nextTask : Nat
  actions : List ListenerAction

inductive SyncError where
  | panel (reason : String)
  | tooManyUsers (count maxUsers : Nat)
  deriving DecidableEq, Repr

def SyncError.message : SyncError → String
  | panel reason => reason
  | tooManyUsers count maxUsers =>
      s!"panel returned {count} users, over configured max_users={maxUsers}"

/-- `PanelClient::users`, from the rows of the panel's answer. -/
def panelUsers (answer : Except String (Option (List PanelUser))) :
    Except String (List PanelUser) :=
  answer.map fun rows => (rows.getD []).filter PanelUser.isEnabled

def UserTables.empty : UserTables := ⟨∅, ∅, ∅, ∅, ∅⟩

namespace BackendRuntime

def new (config : Config) : BackendRuntime where
  config := config
  traffic := .empty
  conns := .empty
  speeds := .empty
  activeUsers := ∅
  sessions := .new config.limits.sessionTtlSecs config.limits.maxSessions
  aliveIps := .new config.limits.aliveIpTtlSecs config.limits.maxAliveIps
  detectLogs := .new config.limits.detectLogTtlSecs config.limits.maxDetectLogs
  tables := .empty
  nextTask := 0
  actions := []

variable (P : Primitives) (fromUser : PanelUser → UserPolicy)

/-- One turn of the loop over the rows: the ledgers and the tables so far. -/
def registerUser (acc : BackendRuntime × UserTables) (user : PanelUser) :
    BackendRuntime × UserTables :=
  let userId := user.userId
  let policy := fromUser user
  let counters := acc.1.traffic.ensureUser userId
  let conns := acc.1.conns.ensureUser userId
  let speeds := acc.1.speeds.ensureUser userId policy.speedLimitBps
  ({ acc.1 with traffic := counters.2, conns := conns.2, speeds := speeds.2 }, {
    authUsers := if user.isMultiUser = 0 then
        acc.2.authUsers.insert userId (deriveUserAuthKey P user.password)
      else acc.2.authUsers
    countersByUser := acc.2.countersByUser.insert userId counters.1
    connsByUser := acc.2.connsByUser.insert userId conns.1
    speedsByUser := acc.2.speedsByUser.insert userId speeds.1
    policies := if policy.needsConnectionPolicy then acc.2.policies.insert userId policy
      else acc.2.policies
  })

/-- The tables of a list of rows, and their publication. -/
def publishTables (users : List PanelUser) (rt : BackendRuntime) : BackendRuntime :=
  let built := users.foldl (registerUser P fromUser) (rt, .empty)
  { built.1 with tables := built.2 }

/-- The first row of each port. -/
def mergeCarrierUsers (users : List PanelUser) : List PanelUser :=
  users.foldl (fun kept user =>
    if kept.any fun existing => existing.port = user.port then kept else kept ++ [user]) []

def listenerUsers (users : List PanelUser) : List PanelUser :=
  if users.any fun user => user.isMultiUser ≠ 0 then
    mergeCarrierUsers (users.filter fun user => user.isMultiUser ≠ 0)
  else users.filter fun user => user.isMultiUser = 0

def fingerprintOf (user : PanelUser) (profile : Profile) : UserFingerprint :=
  ⟨user.port, user.password, profile, user.isMultiUser⟩

def enforcement (config : Config) : EnforcementConfig where
  forbidden := config.node.enforceForbidden
  connLimit := config.node.enforceConnLimit
  auditBlock := config.node.auditBlock
  speed := config.node.enforceSpeed

/-- `spawn_user_listener` of `tcp.rs` or `udp.rs`. -/
def spawnListener (rt : BackendRuntime) (kind : ListenerKind) (user : PanelUser)
    (profile : Profile) : ListenerTask × BackendRuntime :=
  let task : ListenerTask := ⟨rt.nextTask, kind, user.userId, user.port, user.password, profile,
    enforcement rt.config, user.isMultiUser⟩
  (task, { rt with nextTask := rt.nextTask + 1, actions := rt.actions ++ [.spawn task] })

/-- `spawn_user_listener` where the configuration enables it. -/
def spawnIf (rt : BackendRuntime) (enabled : Bool) (kind : ListenerKind) (user : PanelUser)
    (profile : Profile) : Option ListenerTask × BackendRuntime :=
  if enabled then
    let spawned := rt.spawnListener kind user profile
    (some spawned.1, spawned.2)
  else (none, rt)

/-- The removal of a port, with the stop of its tasks. -/
def removePort (rt : BackendRuntime) (port : UInt16) : BackendRuntime :=
  match rt.activeUsers[port]? with
  | some active => { rt with
      activeUsers := rt.activeUsers.erase port
      actions := rt.actions ++ active.stop port }
  | none => rt

def ensureActiveUser (rt : BackendRuntime) (user : PanelUser) (profile : Profile) :
    BackendRuntime :=
  let fingerprint := fingerprintOf user profile
  if (rt.activeUsers[user.port]?).any fun active => active.fingerprint = fingerprint then rt
  else
    let rt := rt.removePort user.port
    let tcp := rt.spawnIf rt.config.node.tcpEnabled .tcp user profile
    let udp := tcp.2.spawnIf rt.config.node.udpEnabled .udp user profile
    { udp.2 with activeUsers := udp.2.activeUsers.insert user.port ⟨fingerprint, tcp.1, udp.1⟩ }

/-- One turn of the loop over the selected rows; an unsupported profile is skipped. -/
def ensureListener (rt : BackendRuntime) (user : PanelUser) : BackendRuntime :=
  match Profile.fromUser user rt.config.node with
  | .ok profile => rt.ensureActiveUser user profile
  | .error _ => rt

def livePorts (config : Config) (rows : List PanelUser) : List UInt16 :=
  (rows.filter fun user => (Profile.fromUser user config.node).isOk).map PanelUser.port

def removeStalePorts (rt : BackendRuntime) (live : List UInt16) : BackendRuntime :=
  (rt.activeUsers.keys.filter fun port => port ∉ live).foldl removePort rt

def isLive (users : List PanelUser) (userId : Nat) : Bool :=
  users.any fun user => user.userId = userId

def removeStaleUsers (rt : BackendRuntime) (users : List PanelUser) : BackendRuntime :=
  let live := isLive users
  { rt with
    traffic := rt.traffic.removeStaleUsers live
    conns := rt.conns.retain live
    speeds := rt.speeds.retain live
    sessions := rt.sessions.retain fun key _ => live key.userId
    aliveIps := rt.aliveIps.retain fun key _ => live key.userId
    detectLogs := rt.detectLogs.retain fun key _ => live key.userId }

/-- `sync_users` once the list is accepted. -/
def applyUsers (users : List PanelUser) (rt : BackendRuntime) : BackendRuntime :=
  let rows := listenerUsers users
  let rt := publishTables P fromUser users rt
  let rt := rows.foldl ensureListener rt
  let rt := rt.removeStalePorts (livePorts rt.config rows)
  rt.removeStaleUsers users

def syncUsers (answer : Except String (List PanelUser)) : Call SyncError BackendRuntime Unit := do
  match answer with
  | .error reason => bail (.panel reason)
  | .ok users =>
      let rt ← get
      if rt.config.limits.maxUsers < users.length then
        bail (.tooManyUsers users.length rt.config.limits.maxUsers)
      else
        modify (applyUsers P fromUser users)

end BackendRuntime

end SsrBackend
