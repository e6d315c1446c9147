import SsrBackend.Relay.Policy
import SsrBackend.Ssr.Cipher

/-!
A row of the panel's user list (`panel.rs`), the settings of the node
(`config.rs`) and the profile that a row and the settings give (`ssr/mod.rs`).
-/

namespace SsrBackend

structure PanelUser where
  id : Nat
  userId? : Option Nat
  port : UInt16
  password : String
  method : Option String
  protocol : Option String
  obfs : Option String
  enable : Option Int
  isMultiUser : Int
  nodeSpeedlimit : Option Float
  nodeConnector : Option Int
  forbiddenIp : Option String
  forbiddenPort : Option String

namespace PanelUser

def userId (user : PanelUser) : Nat := user.userId?.getD user.id

def isEnabled (user : PanelUser) : Bool := user.enable.getD 1 ≠ 0

end PanelUser

structure NodeConfig where
  method : String
  protocol : String
  obfs : String
  timeoutSecs : Nat
  tcpEnabled : Bool
  udpEnabled : Bool
  enforceForbidden : Bool
  enforceConnLimit : Bool
  auditBlock : Bool
  enforceSpeed : Bool

/-- `CipherKind::from_method`. -/
def CipherKind.fromMethod (method : String) : Except String CipherKind :=
  match method.toLower with
  | "rc4-md5" => .ok .rc4Md5
  | "chacha20-ietf" => .ok .chacha20Ietf
  | other => .error
      s!"unsupported cipher method {other}; only rc4-md5 and chacha20-ietf are supported"

structure Profile where
  method : String
  protocol : String
  obfs : String
  timeout : Nat
  deriving DecidableEq, Repr

namespace Profile

def unsupported (profile : Profile) : String :=
  s!"unsupported SSR profile method={profile.method} protocol={profile.protocol} " ++
    s!"obfs={profile.obfs}; only rc4-md5|chacha20-ietf / auth_aes128_md5 / plain are supported"

def ensureSupported (profile : Profile) : Except String Unit :=
  if (profile.method = "rc4-md5" ∨ profile.method = "chacha20-ietf") ∧
      profile.protocol = "auth_aes128_md5" ∧ profile.obfs = "plain" then do
    let _ ← CipherKind.fromMethod profile.method
    return ()
  else .error profile.unsupported

def new (method protocol obfs : String) (timeout : Nat) : Except String Profile := do
  let profile : Profile := ⟨method.toLower, protocol.toLower, obfs.toLower, timeout⟩
  profile.ensureSupported
  return profile

def fromUser (user : PanelUser) (node : NodeConfig) : Except String Profile :=
  new (user.method.getD node.method) (user.protocol.getD node.protocol)
    (user.obfs.getD node.obfs) node.timeoutSecs

def cipherKind {m : Type → Type} [Monad m] [MonadPanic m] (profile : Profile) : m CipherKind :=
  expect (CipherKind.fromMethod profile.method).toOption

end Profile

end SsrBackend
