import SsrBackend.Ssr.Address

/-!
The per-user limits of `policy.rs` as the relay reads them. The parsers of the
panel's texts are in `Runtime.PolicyText`: a `Cidr` carries the bound on its
length that `Cidr::parse` checks, and nothing else builds one.
-/

namespace SsrBackend

structure EnforcementConfig where
  forbidden : Bool
  connLimit : Bool
  auditBlock : Bool
  speed : Bool

namespace IpAddr

def width : IpAddr → Nat
  | v4 _ => 32
  | v6 _ => 128

/-- The number whose bytes, most significant first, are `octets`. -/
def beValue (octets : List UInt8) : Nat := octets.foldl (fun acc b => acc * 256 + b.toNat) 0

/-- `Ipv6Addr::to_ipv4_mapped`. -/
def toIpv4Mapped (octets : Vector UInt8 16) : Option (Vector UInt8 4) :=
  if octets.toList.take 12 = [0, 0, 0, 0, 0, 0, 0, 0, 0, 0, 0xff, 0xff] then
    some (block 4 (octets.toList.drop 12))
  else none

/-- `Ipv4Addr::to_ipv6_mapped`. -/
def toIpv6Mapped (octets : Vector UInt8 4) : Vector UInt8 16 :=
  #v[0, 0, 0, 0, 0, 0, 0, 0, 0, 0, 0xff, 0xff, octets.get 0, octets.get 1, octets.get 2,
    octets.get 3]

end IpAddr

structure Cidr where
  base : IpAddr
  prefixLen : Nat
  le_width : prefixLen ≤ base.width

/-- `v4_in` and `v6_in`: equality under the mask of the first bits. -/
def maskedIn (width : Nat) (base ip : BitVec width) (prefixLen : Nat) : Bool :=
  if prefixLen = 0 then true
  else
    let mask := BitVec.allOnes width <<< (width - prefixLen)
    base &&& mask == ip &&& mask

def v4In (base ip : Vector UInt8 4) (prefixLen : Nat) : Bool :=
  maskedIn 32 (.ofNat 32 (IpAddr.beValue base.toList)) (.ofNat 32 (IpAddr.beValue ip.toList))
    prefixLen

def v6In (base ip : Vector UInt8 16) (prefixLen : Nat) : Bool :=
  maskedIn 128 (.ofNat 128 (IpAddr.beValue base.toList)) (.ofNat 128 (IpAddr.beValue ip.toList))
    prefixLen

def Cidr.contains (cidr : Cidr) (ip : IpAddr) : Bool :=
  match cidr.base, ip with
  | .v4 base, .v4 ip => v4In base ip cidr.prefixLen
  | .v6 base, .v6 ip => v6In base ip cidr.prefixLen
  | .v4 base, .v6 ip =>
      match IpAddr.toIpv4Mapped ip with
      | some ip4 => v4In base ip4 cidr.prefixLen
      | none => false
  | .v6 base, .v4 ip => v6In base (IpAddr.toIpv6Mapped ip) cidr.prefixLen

structure PortRange where
  start : UInt16
  finish : UInt16

def PortRange.contains (range : PortRange) (port : UInt16) : Bool :=
  range.start ≤ port && port ≤ range.finish

/-- The limits of a user. The rate cap is read by the supervisor and not by the relay. -/
structure UserPolicy where
  speedLimitBps : Nat
  connLimit : Nat
  forbiddenIps : List Cidr
  forbiddenPorts : List PortRange

namespace UserPolicy

def needsConnectionPolicy (policy : UserPolicy) : Bool :=
  0 < policy.connLimit || !policy.forbiddenIps.isEmpty || !policy.forbiddenPorts.isEmpty

def portForbidden (policy : UserPolicy) (port : UInt16) : Bool :=
  policy.forbiddenPorts.any fun range => range.contains port

def ipForbidden (policy : UserPolicy) (ip : IpAddr) : Bool :=
  policy.forbiddenIps.any fun cidr => cidr.contains ip

def hasForbiddenIp (policy : UserPolicy) : Bool := !policy.forbiddenIps.isEmpty

end UserPolicy

end SsrBackend
