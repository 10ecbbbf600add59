/-!
Internet addresses of both families, the families a scan may use, and endpoints (an address with
a port). Addresses are ordered with all IPv4 addresses first, then by number.
-/

namespace EdgeScan

/-- An IPv4 address, as the number its four octets spell. -/
structure IPv4 where
  bits : UInt32
deriving DecidableEq, Repr, Hashable, Inhabited

structure IPv6 where
  bits : BitVec 128
deriving DecidableEq, Repr, Hashable, Inhabited

inductive Address
  | v4 (ip : IPv4)
  | v6 (ip : IPv6)
deriving DecidableEq, Repr, Hashable, Inhabited

/-- An address with a port; IPv6 endpoints also carry the scope they are reached in, 0 for none. -/
inductive Endpoint
  | v4 (ip : IPv4) (port : UInt16)
  | v6 (ip : IPv6) (port : UInt16) (scope : UInt32)
deriving DecidableEq, Repr, Hashable, Inhabited

structure Families where
  ipv4 : Bool
  ipv6 : Bool
deriving DecidableEq, Repr

namespace IPv4

def toNat (ip : IPv4) : Nat := ip.bits.toNat

/-- The address with a given number, taken modulo 2^32. -/
def ofNat (n : Nat) : IPv4 := ⟨n.toUInt32⟩

def octets (ip : IPv4) : List UInt8 :=
  [(ip.bits >>> 24).toUInt8, (ip.bits >>> 16).toUInt8, (ip.bits >>> 8).toUInt8, ip.bits.toUInt8]

def lastOctet (ip : IPv4) : UInt8 := ip.bits.toUInt8

end IPv4

namespace IPv6

def toNat (ip : IPv6) : Nat := ip.bits.toNat

def ofNat (n : Nat) : IPv6 := ⟨BitVec.ofNat 128 n⟩

def ofGroups (groups : List Nat) : IPv6 :=
  ofNat (groups.foldl (fun n g => n * 0x10000 + g) 0)

def groups (ip : IPv6) : List Nat :=
  (List.range 8).map fun i => ip.toNat >>> (16 * (7 - i)) % 0x10000

def isGlobalUnicast (ip : IPv6) : Bool :=
  ip.bits >>> 125 == 1#128

/-- Whether what is sent to the address stays on one link: it lies in fe80::/10, or it is a multicast
address for an interface or a link, ff-1:: or ff-2:: with any flags. -/
def staysOnLink (ip : IPv6) : Bool :=
  let multicast := ip.bits >>> 112 &&& 0xFF0F#128
  ip.bits >>> 118 == 0x3FA#128 || multicast == 0xFF01#128 || multicast == 0xFF02#128

end IPv6

namespace Address

def isIPv4 : Address → Bool
  | v4 _ => true
  | v6 _ => false

def rank : Address → Nat
  | v4 ip => ip.toNat
  | v6 ip => 0x100000000 + ip.toNat

end Address

namespace Endpoint

def new (address : Address) (port : UInt16) : Endpoint :=
  match address with
  | .v4 ip => v4 ip port
  | .v6 ip => v6 ip port 0

/-- The address of an endpoint; a scope is not part of it. -/
def address : Endpoint → Address
  | v4 ip _ => .v4 ip
  | v6 ip _ _ => .v6 ip

def port : Endpoint → UInt16
  | v4 _ port => port
  | v6 _ port _ => port

def scope : Endpoint → UInt32
  | v4 _ _ => 0
  | v6 _ _ scope => scope

/-- Endpoints are ordered by address, then by port, then by scope. -/
def rank (e : Endpoint) : Nat :=
  (e.address.rank * 0x10000 + e.port.toNat) * 0x100000000 + e.scope.toNat

@[simp] theorem address_new (a : Address) (p : UInt16) : (new a p).address = a := by
  cases a <;> rfl

@[simp] theorem port_new (a : Address) (p : UInt16) : (new a p).port = p := by
  cases a <;> rfl

end Endpoint

def Families.allows (families : Families) (a : Address) : Bool :=
  match a with
  | .v4 _ => families.ipv4
  | .v6 _ => families.ipv6

end EdgeScan
