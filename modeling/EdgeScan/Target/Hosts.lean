import EdgeScan.Distinct
import EdgeScan.Target.Endpoints

/-!
The hosts of a dedicated port scan, and the ports asked for on each. A host is a literal address
or a name; a name stands for its addresses of enabled families, whatever scope they are in.
-/

namespace EdgeScan

/-- The usable addresses of a host, with a report if a name has none. -/
def Resolver.hostAddresses (resolver : Resolver) (families : Families) (host : String) :
    List Address × List Event :=
  match Address.parse? host.toList with
  | some a => ([a], [])
  | none =>
    match resolver.addresses host with
    | .error reason => ([], [.hostUnresolved host reason])
    | .ok found =>
      match distinct ((found.map HostAddress.address).filter families.allows) with
      | [] => ([], [.hostOutsideFamilies host])
      | addresses => (addresses, [])

abbrev PortTargets := List (Address × List UInt16)

namespace PortTargets

/-- Asks for the given ports on an address, in place of what was asked for on it before. -/
def insert (targets : PortTargets) (a : Address) (ports : List UInt16) : PortTargets :=
  match targets with
  | [] => [(a, ports)]
  | (b, old) :: rest =>
    if a = b then (a, ports) :: rest
    else if a.rank < b.rank then (a, ports) :: (b, old) :: rest
    else (b, old) :: insert rest a ports

/-- The targets of a list of requests, later ones replacing earlier ones on the same address. -/
def ofList (requests : List (Address × List UInt16)) : PortTargets :=
  requests.foldl (fun targets (a, ports) => insert targets a ports) []

/-- The endpoints asked for, each once, in the order of the targets. -/
def endpoints (targets : PortTargets) : List Endpoint :=
  distinct (targets.flatMap fun (a, ports) => ports.map (Endpoint.new a))

end PortTargets

end EdgeScan
