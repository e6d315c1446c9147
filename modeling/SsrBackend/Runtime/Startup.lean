import SsrBackend.Runtime.Fleet

/-!
How the process starts: `main.rs` and `config.rs`. The records that the loop and the
listeners read are extended to the whole of the configuration. The file system, TOML,
the environment and the HTTP client are outside the repository; what they do is part of
the `Host`. A key of the file that has a default may be missing, a table may not.
-/

namespace SsrBackend

structure PanelSettings extends PanelConfig where
  baseUrl : String
  requestTimeoutSecs : Nat
  ipv4Only : Bool

structure NodeSettings extends NodeConfig where
  listenHost : String
  serverPort : UInt16
  workers : Nat

structure LimitsSettings extends LimitsConfig, RelayLimits

/-- `Config` of `config.rs`. -/
structure Settings where
  panel : PanelSettings
  node : NodeSettings
  limits : LimitsSettings

def Settings.config (settings : Settings) : Config :=
  ⟨settings.node.toNodeConfig, settings.limits.toLimitsConfig⟩

/-! ### The file -/

structure PanelTable where
  baseUrl : String
  key : String
  nodeId : Nat
  requestTimeoutSecs : Option Nat := none
  pollIntervalSecs : Option Nat := none
  trafficReportIntervalSecs : Option Nat := none
  heartbeatIntervalSecs : Option Nat := none
  ipv4Only : Option Bool := none

structure NodeTable where
  listenHost : Option String := none
  method : Option String := none
  protocol : Option String := none
  obfs : Option String := none
  serverPort : Option UInt16 := none
  timeoutSecs : Option Nat := none
  workers : Option Nat := none
  tcpEnabled : Option Bool := none
  udpEnabled : Option Bool := none
  enforceForbidden : Option Bool := none
  enforceConnLimit : Option Bool := none
  auditBlock : Option Bool := none
  enforceSpeed : Option Bool := none

structure LimitsTable where
  maxUsers : Option Nat := none
  maxSessions : Option Nat := none
  sessionTtlSecs : Option Nat := none
  maxUdpAssociations : Option Nat := none
  udpAssociationTtlSecs : Option Nat := none
  maxAliveIps : Option Nat := none
  aliveIpTtlSecs : Option Nat := none
  maxDetectLogs : Option Nat := none
  detectLogTtlSecs : Option Nat := none
  maxAcceptsPerPort : Option Nat := none

structure ConfigFile where
  panel : PanelTable
  node : NodeTable
  limits : LimitsTable

def PanelTable.settings (table : PanelTable) : PanelSettings where
  baseUrl := table.baseUrl
  key := table.key
  nodeId := table.nodeId
  requestTimeoutSecs := table.requestTimeoutSecs.getD 10
  pollIntervalSecs := table.pollIntervalSecs.getD 60
  trafficReportIntervalSecs := table.trafficReportIntervalSecs.getD 60
  heartbeatIntervalSecs := table.heartbeatIntervalSecs.getD 60
  ipv4Only := table.ipv4Only.getD true

def NodeTable.settings (table : NodeTable) : NodeSettings where
  listenHost := table.listenHost.getD "0.0.0.0"
  method := table.method.getD "rc4-md5"
  protocol := table.protocol.getD "auth_aes128_md5"
  obfs := table.obfs.getD "plain"
  serverPort := table.serverPort.getD 43003
  timeoutSecs := table.timeoutSecs.getD 300
  workers := table.workers.getD 1
  tcpEnabled := table.tcpEnabled.getD true
  udpEnabled := table.udpEnabled.getD true
  enforceForbidden := table.enforceForbidden.getD true
  enforceConnLimit := table.enforceConnLimit.getD true
  auditBlock := table.auditBlock.getD true
  enforceSpeed := table.enforceSpeed.getD true

def LimitsTable.settings (table : LimitsTable) : LimitsSettings where
  maxUsers := table.maxUsers.getD 4096
  maxSessions := table.maxSessions.getD 65536
  sessionTtlSecs := table.sessionTtlSecs.getD 600
  maxUdpAssociations := table.maxUdpAssociations.getD 32768
  udpAssociationTtl := table.udpAssociationTtlSecs.getD 180
  maxAliveIps := table.maxAliveIps.getD 65536
  aliveIpTtlSecs := table.aliveIpTtlSecs.getD 600
  maxDetectLogs := table.maxDetectLogs.getD 8192
  detectLogTtlSecs := table.detectLogTtlSecs.getD 3600
  maxAcceptsPerPort := table.maxAcceptsPerPort.getD 2048

def ConfigFile.settings (file : ConfigFile) : Settings :=
  ⟨file.panel.settings, file.node.settings, file.limits.settings⟩

/-! ### `main` up to the run -/

/-- What the process finds around it. A variable that is not Unicode is not found, nor is a file
that is not. -/
structure Host where
  args : List String
  env : String → Option String
  readToString : String → Option String
  toml : String → Option ConfigFile
  parsesUrl : String → Bool
  buildsClient : (requestTimeoutSecs : Nat) → (ipv4Only : Bool) → Bool

/-- The loop of `config_path_from_args`; what follows `--config` is not looked at again. -/
def configPath : List String → String
  | [] => "config.toml"
  | arg :: rest =>
      if arg = "--config" then rest.head?.getD "config.toml" else configPath rest

/-- The first argument is the name of the program. -/
def configPathFromArgs (args : List String) : String := configPath (args.drop 1)

namespace Settings

/-- A node id that is not a `u64` is passed over. -/
def applyEnvOverrides (env : String → Option String) (settings : Settings) : Settings :=
  { settings with panel := { settings.panel with
      baseUrl := (env "SSPANEL_PANEL_BASE_URL").getD settings.panel.baseUrl
      key := (env "SSPANEL_PANEL_KEY").getD settings.panel.key
      nodeId := ((env "SSPANEL_NODE_ID").bind fun value =>
        Text.parseUnsigned (2 ^ 64) value.toList).getD settings.panel.nodeId } }

def load (host : Host) (path : String) : Except String Settings :=
  match host.readToString path with
  | none => .error s!"reading config {path}"
  | some raw =>
      match host.toml raw with
      | none => .error "parsing config TOML"
      | some file => .ok (file.settings.applyEnvOverrides host.env)

/-- A check that returns early. -/
def refuse (wrong : Prop) [Decidable wrong] (reason : String) : Except String Unit :=
  if wrong then .error reason else .ok ()

def validate (settings : Settings) : Except String Unit := do
  refuse (Text.trim settings.panel.baseUrl.toList = []) "panel.base_url is required"
  refuse (Text.trim settings.panel.key.toList = []) "panel.key is required"
  refuse (settings.node.workers = 0) "node.workers must be >= 1"
  refuse (settings.node.serverPort = 0) "node.server_port must be >= 1"
  refuse (settings.node.timeoutSecs = 0) "node.timeout_secs must be >= 1"
  refuse (settings.limits.maxUsers = 0 ∨ settings.limits.maxSessions = 0)
    "limits.max_users and limits.max_sessions must be >= 1"
  let _ ← Profile.new settings.node.method settings.node.protocol settings.node.obfs
    settings.node.timeoutSecs
  return ()

end Settings

def PanelClient.new (host : Host) (panel : PanelSettings) : Except String Unit := do
  Settings.refuse
    (host.parsesUrl (String.ofList (panel.baseUrl.toList.rdropWhile (· = '/'))) = false)
    "panel.base_url is not a valid URL"
  Settings.refuse (host.buildsClient panel.requestTimeoutSecs panel.ipv4Only = false)
    "building HTTP client"

/-- `main` up to the run of the backend. -/
def boot (host : Host) : Except String Settings := do
  let settings ← Settings.load host (configPathFromArgs host.args)
  settings.validate
  PanelClient.new host settings.panel
  return settings

/-! ### What a start has checked -/

/-- A sequence of steps succeeds where each of them does. -/
theorem except_bind_ok {ε α β : Type} {x : Except ε α} {f : α → Except ε β} {b : β} :
    (x >>= f) = .ok b ↔ ∃ a, x = .ok a ∧ f a = .ok b := by
  cases x with
  | error e => simp [bind, Except.bind]
  | ok a => simp [bind, Except.bind]

namespace Settings

theorem refuse_ok {wrong : Prop} [Decidable wrong] {reason : String} {u : Unit} :
    refuse wrong reason = .ok u ↔ ¬wrong := by
  by_cases hwrong : wrong
  · simp [refuse, hwrong]
  · simp [refuse, hwrong]

/-- The settings that pass. -/
structure Valid (settings : Settings) : Prop where
  baseUrl : Text.trim settings.panel.baseUrl.toList ≠ []
  key : Text.trim settings.panel.key.toList ≠ []
  workers : 0 < settings.node.workers
  serverPort : settings.node.serverPort ≠ 0
  timeout : 0 < settings.node.timeoutSecs
  maxUsers : 0 < settings.limits.maxUsers
  maxSessions : 0 < settings.limits.maxSessions
  profile : ∃ profile, Profile.new settings.node.method settings.node.protocol settings.node.obfs
    settings.node.timeoutSecs = .ok profile

theorem validate_ok_iff {settings : Settings} : settings.validate = .ok () ↔ settings.Valid := by
  simp only [validate, except_bind_ok, refuse_ok, exists_const, not_or, ← Nat.pos_iff_ne_zero]
  constructor
  · rintro ⟨hurl, hkey, hworkers, hport, htimeout, ⟨husers, hsessions⟩, profile, hprofile, -⟩
    exact ⟨hurl, hkey, hworkers, hport, htimeout, husers, hsessions, profile, hprofile⟩
  · intro h
    obtain ⟨profile, hprofile⟩ := h.profile
    exact ⟨h.baseUrl, h.key, h.workers, h.serverPort, h.timeout, ⟨h.maxUsers, h.maxSessions⟩,
      profile, hprofile, rfl⟩

/-- Every default passes the check of its key. -/
theorem defaults_valid {panel : PanelTable} (hurl : Text.trim panel.baseUrl.toList ≠ [])
    (hkey : Text.trim panel.key.toList ≠ []) : (ConfigFile.settings ⟨panel, {}, {}⟩).Valid := by
  have hnode : 0 < (NodeTable.settings {}).workers ∧ (NodeTable.settings {}).serverPort ≠ 0 ∧
      0 < (NodeTable.settings {}).timeoutSecs := by decide
  have hlimits : 0 < (LimitsTable.settings {}).maxUsers ∧
      0 < (LimitsTable.settings {}).maxSessions := by decide
  have hprofile : Profile.new "rc4-md5" "auth_aes128_md5" "plain" 300 =
      .ok ⟨"rc4-md5", "auth_aes128_md5", "plain", 300⟩ := by decide +kernel
  exact ⟨hurl, hkey, hnode.1, hnode.2.1, hnode.2.2, hlimits.1, hlimits.2, _, hprofile⟩

end Settings

theorem Settings.load_ok_iff {host : Host} {path : String} {settings : Settings} :
    load host path = .ok settings ↔ ∃ raw file, host.readToString path = some raw ∧
      host.toml raw = some file ∧ settings = file.settings.applyEnvOverrides host.env := by
  rw [load]
  cases hraw : host.readToString path with
  | none => simp
  | some raw =>
      cases hfile : host.toml raw with
      | none => simp [hfile]
      | some file => simp [hfile, eq_comm]

/-- A process starts where it reads a file that passes the checks, as the environment overrides
it, and can make its client. -/
theorem boot_ok_iff {host : Host} {settings : Settings} :
    boot host = .ok settings ↔
      (∃ raw file, host.readToString (configPathFromArgs host.args) = some raw ∧
        host.toml raw = some file ∧ settings = file.settings.applyEnvOverrides host.env) ∧
      settings.Valid ∧ PanelClient.new host settings.panel = .ok () := by
  simp only [boot, except_bind_ok, ← Settings.load_ok_iff, ← Settings.validate_ok_iff]
  constructor
  · rintro ⟨loaded, hload, ⟨⟩, hvalid, ⟨⟩, hclient, hsame⟩
    cases hsame
    exact ⟨hload, hvalid, hclient⟩
  · rintro ⟨hload, hvalid, hclient⟩
    exact ⟨settings, hload, (), hvalid, (), hclient, rfl⟩

/-- A row that leaves its profile to the node has the one that the start has checked. -/
theorem Settings.Valid.fromUser_ok {settings : Settings} (h : settings.Valid) {user : PanelUser}
    (hmethod : user.method = none) (hprotocol : user.protocol = none) (hobfs : user.obfs = none) :
    ∃ profile, Profile.fromUser user settings.config.node = .ok profile := by
  obtain ⟨profile, hprofile⟩ := h.profile
  refine ⟨profile, ?_⟩
  rw [Profile.fromUser, hmethod, hprotocol, hobfs]
  exact hprofile

/-! ### A host -/

def sampleToml : String :=
  "[panel]\nbase_url = \"https://panel.example.com/\"\nkey = \"key\"\nnode_id = 3\n[node]\n[limits]\n"

/-- The tables of that text. -/
def sampleFile : ConfigFile :=
  ⟨{ baseUrl := "https://panel.example.com/", key := "key", nodeId := 3 }, {}, {}⟩

def sampleHost : Host where
  args := ["backend", "--config", "/etc/backend.toml"]
  env _ := none
  readToString path := if path = "/etc/backend.toml" then some sampleToml else none
  toml raw := if raw = sampleToml then some sampleFile else none
  parsesUrl url := url.startsWith "https://"
  buildsClient _ _ := true

theorem sample_boot : boot sampleHost = .ok sampleFile.settings := by
  have hread : sampleHost.readToString (configPathFromArgs sampleHost.args) = some sampleToml := by
    decide +kernel
  have htoml : sampleHost.toml sampleToml = some sampleFile := by
    change (if sampleToml = sampleToml then some sampleFile else none) = some sampleFile
    rw [if_pos rfl]
  have hvalid : sampleFile.settings.Valid := Settings.defaults_valid (by decide) (by decide)
  have hclient : PanelClient.new sampleHost sampleFile.settings.panel = .ok () := by
    decide +kernel
  exact boot_ok_iff.mpr ⟨⟨sampleToml, sampleFile, hread, htoml, rfl⟩, hvalid, hclient⟩

end SsrBackend
