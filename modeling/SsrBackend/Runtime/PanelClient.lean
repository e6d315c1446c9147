import SsrBackend.Foundation.Text
import SsrBackend.Runtime.AuxiliaryState

/-!
The client of the panel (`panel.rs`): the requests it makes and how it reads their
replies. HTTP and `serde_json` are outside the repository. A reply is what comes of
a request, and the reading of a JSON value is the argument `S`. An error is the text
of its outermost context, which is all that the supervisor logs.
-/

namespace SsrBackend

structure PanelConfig where
  key : String
  nodeId : Nat
  pollIntervalSecs : Nat
  trafficReportIntervalSecs : Nat
  heartbeatIntervalSecs : Nat

structure DetectRule where
  id : Nat
  name : String
  regex : String

/-- The JSON of the bodies that are sent. -/
inductive Json where
  | num (value : Nat)
  | str (text : String)
  | arr (items : List Json)
  | obj (fields : List (String × Json))

inductive Verb where
  | get
  | post
  deriving DecidableEq, Repr

def Verb.name : Verb → String
  | get => "GET"
  | post => "POST"

/-- A request below `/mod_mu/`. -/
structure Request where
  verb : Verb
  path : String
  query : List (String × String)
  body : Option Json

/-- What comes of a request: no URL can be made of it, it is not answered, it is answered
with an error status or with a body that is not JSON, or with a value. -/
inductive HttpReply (V : Type) where
  | noUrl (reason : String)
  | unsent
  | errorStatus
  | notJson
  | json (value : V)

structure ApiResponse (V : Type) where
  ret : Int
  msg : Option String
  data : Option V

/-- What is used of `serde_json`. -/
structure Serde (V : Type) where
  isNull : V → Bool
  envelope : V → Option (ApiResponse V)
  users : V → Option (List PanelUser)
  detectRules : V → Option (List DetectRule)

namespace PanelClient

section Requests

variable (c : PanelConfig)

/-- The pairs of `url`: the key comes first. -/
def url (query : List (String × String)) : List (String × String) := ("key", c.key) :: query

def get (path : String) (query : List (String × String)) : Request :=
  ⟨.get, path, url c query, none⟩

def post (path : String) (query : List (String × String)) (body : Json) : Request :=
  ⟨.post, path, url c query, some body⟩

def nodeQuery : List (String × String) := [("node_id", toString c.nodeId)]

def infoPath : String := s!"nodes/{c.nodeId}/info"

/-- The path of the node's information is none of the others. -/
theorem infoPath_ne {path : String} (h : path.toList.head? ≠ some 'n') : infoPath c ≠ path := by
  intro heq
  rw [← heq] at h
  simp [infoPath, show toString "nodes/" = "nodes/" from rfl] at h

def ping : Request := get c "func/ping" []

def nodeInfo : Request := get c (infoPath c) []

def reportNodeInfo (load : String) (uptime : Nat) : Request :=
  post c (infoPath c) [] (.obj [("load", .str load), ("uptime", .num uptime)])

def users : Request := get c "users" (nodeQuery c)

def detectRules : Request := get c "func/detect_rules" []

def relayRules : Request := get c "func/relay_rules" (nodeQuery c)

def deltaItem (delta : TrafficDelta) : Json :=
  .obj [("user_id", .num delta.userId), ("u", .num delta.upload), ("d", .num delta.download)]

def aliveItem (item : AliveIpReport) : Json :=
  .obj [("user_id", .num item.userId), ("ip", .str item.ip)]

def detectItem (item : DetectLogReport) : Json :=
  .obj [("user_id", .num item.userId), ("list_id", .num item.listId)]

def dataBody (items : List Json) : Json := .obj [("data", .arr items)]

def reportTraffic (deltas : List TrafficDelta) : Request :=
  post c "users/traffic" (nodeQuery c) (dataBody (deltas.map deltaItem))

def reportAliveIps (items : List AliveIpReport) : Request :=
  post c "users/aliveip" (nodeQuery c) (dataBody (items.map aliveItem))

def reportDetectLogs (items : List DetectLogReport) : Request :=
  post c "users/detectlog" (nodeQuery c) (dataBody (items.map detectItem))

@[simp] theorem ping_path : (ping c).path = "func/ping" := rfl

@[simp] theorem nodeInfo_path : (nodeInfo c).path = infoPath c := rfl

@[simp] theorem reportNodeInfo_path (load : String) (uptime : Nat) :
    (reportNodeInfo c load uptime).path = infoPath c := rfl

@[simp] theorem users_path : (users c).path = "users" := rfl

@[simp] theorem detectRules_path : (detectRules c).path = "func/detect_rules" := rfl

@[simp] theorem relayRules_path : (relayRules c).path = "func/relay_rules" := rfl

@[simp] theorem reportTraffic_path (deltas : List TrafficDelta) :
    (reportTraffic c deltas).path = "users/traffic" := rfl

@[simp] theorem reportAliveIps_path (items : List AliveIpReport) :
    (reportAliveIps c items).path = "users/aliveip" := rfl

@[simp] theorem reportDetectLogs_path (items : List DetectLogReport) :
    (reportDetectLogs c items).path = "users/detectlog" := rfl

end Requests

section Replies

variable {V : Type} (S : Serde V)

/-- The value of a reply, as `get_json` and `post_ack` get it. -/
def fetch (request : Request) : HttpReply V → Except String V
  | .noUrl reason => .error reason
  | .unsent => .error s!"{request.verb.name} /mod_mu/{request.path}"
  | .errorStatus => .error s!"{request.verb.name} /mod_mu/{request.path} status"
  | .notJson => .error s!"decoding /mod_mu/{request.path} response"
  | .json value => .ok value

def unwrapRet {α : Type} (decode : V → Option α) (path : String) (value : V) :
    Except String (Option α) :=
  match S.envelope value with
  | none => .error s!"parsing /mod_mu/{path} envelope"
  | some response =>
      if response.ret ≠ 1 then
        let msg := response.msg.getD ""
        .error s!"/mod_mu/{path} returned ret={response.ret} msg={msg}"
      else
        match response.data with
        | none => .ok none
        | some data =>
            if S.isNull data then .ok none
            else match decode data with
              | none => .error s!"parsing /mod_mu/{path} data"
              | some parsed => .ok (some parsed)

/-- `get_api_optional`. -/
def readOptional {α : Type} (decode : V → Option α) (request : Request) (reply : HttpReply V) :
    Except String (Option α) := do
  let value ← fetch request reply
  unwrapRet S decode request.path value

/-- The end of `post_ack`, which drops the data. -/
def readAck (request : Request) (reply : HttpReply V) : Except String Unit := do
  let _ ← readOptional S some request reply
  return ()

def readUsers (request : Request) (reply : HttpReply V) : Except String (List PanelUser) :=
  panelUsers (readOptional S S.users request reply)

def readDetectRules (request : Request) (reply : HttpReply V) :
    Except String (List DetectRule) := do
  let rules ← readOptional S S.detectRules request reply
  return rules.getD []

end Replies

/-! ### The panel's side of a report -/

def field? (name : String) : Json → Option Json
  | .obj fields => fields.lookup name
  | _ => none

def number? : Json → Option Nat
  | .num value => some value
  | _ => none

def text? : Json → Option String
  | .str text => some text
  | _ => none

def items : Json → List Json
  | .arr items => items
  | _ => []

/-- The user, the upload and the download of an item. -/
def readItem (item : Json) : Option (Nat × Nat × Nat) := do
  let userId ← (field? "user_id" item).bind number?
  let upload ← (field? "u" item).bind number?
  let download ← (field? "d" item).bind number?
  return (userId, upload, download)

def readTraffic (body : Json) : List (Nat × Nat × Nat) :=
  ((field? "data" body).map items).getD [] |>.filterMap readItem

def readAliveItem (item : Json) : Option AliveIpReport := do
  let userId ← (field? "user_id" item).bind number?
  let ip ← (field? "ip" item).bind text?
  return ⟨userId, ip⟩

def readAliveIps (body : Json) : List AliveIpReport :=
  ((field? "data" body).map items).getD [] |>.filterMap readAliveItem

def readDetectItem (item : Json) : Option DetectLogReport := do
  let userId ← (field? "user_id" item).bind number?
  let listId ← (field? "list_id" item).bind number?
  return ⟨userId, listId⟩

def readDetectLogs (body : Json) : List DetectLogReport :=
  ((field? "data" body).map items).getD [] |>.filterMap readDetectItem

theorem readTraffic_deltas (deltas : List TrafficDelta) :
    readTraffic (dataBody (deltas.map deltaItem)) =
      deltas.map fun delta => (delta.userId, delta.upload, delta.download) := by
  have hdata : ((field? "data" (dataBody (deltas.map deltaItem))).map items).getD [] =
      deltas.map deltaItem := rfl
  have hitem : readItem ∘ deltaItem =
      fun delta => some (delta.userId, delta.upload, delta.download) := rfl
  rw [readTraffic, hdata, List.filterMap_map, hitem, List.filterMap_eq_map']

theorem readAliveIps_items (reports : List AliveIpReport) :
    readAliveIps (dataBody (reports.map aliveItem)) = reports := by
  have hdata : ((field? "data" (dataBody (reports.map aliveItem))).map items).getD [] =
      reports.map aliveItem := rfl
  have hitem : readAliveItem ∘ aliveItem = some := rfl
  rw [readAliveIps, hdata, List.filterMap_map, hitem, List.filterMap_some]

theorem readDetectLogs_items (reports : List DetectLogReport) :
    readDetectLogs (dataBody (reports.map detectItem)) = reports := by
  have hdata : ((field? "data" (dataBody (reports.map detectItem))).map items).getD [] =
      reports.map detectItem := rfl
  have hitem : readDetectItem ∘ detectItem = some := rfl
  rw [readDetectLogs, hdata, List.filterMap_map, hitem, List.filterMap_some]

end PanelClient

/-- `compile_rules`: rules with a blank regex are left out, and those that do not compile. -/
def compileRules (compile : String → Option (List UInt8 → Bool)) (rules : List DetectRule) :
    RuleSet :=
  rules.filterMap fun rule =>
    if Text.trim rule.regex.toList = [] then none
    else (compile rule.regex).map fun isMatch => ⟨rule.id, isMatch⟩

end SsrBackend
