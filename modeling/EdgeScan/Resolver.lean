import EdgeScan.Address.Numbers
import EdgeScan.Address.Parser
import EdgeScan.Text.Split

/-!
Turning host names into addresses. A resolver is any function from names to addresses or to the
text of a failure; the one given here knows numeric hosts only. A numeric host may be an IPv6
address together with the scope it is reached in, which is a number or an interface.
-/

namespace EdgeScan

open Text

/-- An address that a host stands for, and the scope it is reached in, 0 for none. IPv4 addresses
have no scope. -/
structure HostAddress where
  address : Address
  scope : UInt32 := 0
deriving DecidableEq, Repr

namespace HostAddress

def endpoint (h : HostAddress) (port : UInt16) : Endpoint :=
  match h.address with
  | .v4 ip => .v4 ip port
  | .v6 ip => .v6 ip port h.scope

def interfaces : List (List Char × UInt32) := [(['l', 'o'], 1)]

/-- The number of an interface, which may be called by its name with a label behind a colon, in no
more than 15 bytes. -/
def interface? (s : List Char) : Option UInt32 :=
  if (String.ofList s).utf8ByteSize ≤ 15 then interfaces.lookup (before ':' s) else none

/-- The scope of an address, written as a decimal number, or as an interface if the address stays
on a link. -/
def scope? (ip : IPv6) (s : List Char) : Option UInt32 :=
  match wholeText (NumberRule.read? ⟨10, none, true, 0x100000000⟩ s) with
  | some n => some n.toUInt32
  | none => if ip.staysOnLink then interface? s else none

def parseScoped? (s : List Char) : Option HostAddress := do
  let (address, scope) ← cutFirst? '%' s
  let ip ← IPv6.parse? address
  let scope ← scope? ip scope
  some ⟨.v6 ip, scope⟩

@[simp] theorem address_endpoint (h : HostAddress) (port : UInt16) :
    (h.endpoint port).address = h.address := by
  rcases h with ⟨_ | _, _⟩ <;> rfl

/-- Without a scope, the endpoint of a host is that of its address. -/
theorem endpoint_unscoped (a : Address) (port : UInt16) :
    HostAddress.endpoint ⟨a, 0⟩ port = Endpoint.new a port := by
  cases a <;> rfl

end HostAddress

abbrev Resolver := String → Except String (List HostAddress)

namespace Resolver

/-- Looks a host up. Literal addresses stand for themselves, all else is left to the resolver; a
name with a NUL character is refused. -/
def addresses (resolver : Resolver) (host : String) : Except String (List HostAddress) :=
  match IPv4.parse? host.toList with
  | some ip => .ok [{ address := .v4 ip }]
  | none =>
    match IPv6.parse? host.toList with
    | some ip => .ok [{ address := .v6 ip }]
    | none =>
      if host.toList.contains '\x00' then .error "file name contained an unexpected NUL byte"
      else resolver host

/-- The resolver that knows IPv4 addresses in numbers and dots and IPv6 addresses with a scope,
and no names. -/
def numeric : Resolver := fun host =>
  match IPv4.ofNumbers? host.toList with
  | some ip => .ok [{ address := .v4 ip }]
  | none =>
    match HostAddress.parseScoped? host.toList with
    | some h => .ok [h]
    | none => .error "failed to lookup address information: Name or service not known"

end Resolver

end EdgeScan
