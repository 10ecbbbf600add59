import EdgeScan.Address.Printer
import EdgeScan.Distinct
import EdgeScan.Event
import EdgeScan.Resolver
import EdgeScan.Text.Blank
import EdgeScan.Text.Numeral
import EdgeScan.Text.Split

/-!
Endpoints as users write them: `ip:port`, `[v6]:port`, a bare address, `host:port` or a bare host,
alone or in a list with commas. A literal endpoint is taken as it is; everything else gets the
default port if it names none, and a resolved name keeps only addresses of enabled families.
-/

namespace EdgeScan

open Text

def defaultHandshakePort : UInt16 := 2408

namespace Endpoint

def isBracket (c : Char) : Bool := c == '[' || c == ']'

/-- Looks up the host of an entry and keeps the addresses of enabled families, each once. -/
def resolveEntry (resolver : Resolver) (families : Families) (entry : String)
    (host : List Char) (port : UInt16) : Except ScanError (List Endpoint) :=
  match resolver.addresses (String.ofList host) with
  | .error reason => .error (.invalidEndpoint entry reason)
  | .ok found =>
    match (found.filter fun h => families.allows h.address).map (·.endpoint port) with
    | [] =>
      .error (.invalidEndpoint entry "resolved, but no address matches the enabled families")
    | endpoints => .ok (distinct endpoints)

/-- Reads one entry. Port 0 as the default stands for the usual handshake port. -/
def ofEntry (resolver : Resolver) (defaultPort : UInt16) (families : Families)
    (entry : List Char) : Except ScanError (List Endpoint) :=
  let port := if defaultPort = 0 then defaultHandshakePort else defaultPort
  match Endpoint.parse? entry with
  | some e => .ok [e]
  | none =>
    match Address.parse? (strip isBracket entry) with
    | some a => .ok [.new a port]
    | none =>
      let name := String.ofList entry
      match cutLast? ':' entry with
      | none => resolveEntry resolver families name entry port
      | some (host, digits) =>
        if host.contains ':' then resolveEntry resolver families name entry port
        else
          match numeral 65535 digits with
          | .error e =>
            .error (.invalidEndpoint name
              ("bad port " ++ String.ofList digits ++ ": " ++ e.message))
          | .ok p => resolveEntry resolver families name host p.toUInt16

/-- The entries of a list with commas: what is left between them after trimming, unless it is
empty. -/
def entries (s : List Char) : List (List Char) :=
  ((pieces ',' s).map trim).filter fun entry => !entry.isEmpty

/-- The endpoints of an entry with a report on it; an entry that cannot be read gives none. -/
def ofEntryOrSkip (resolver : Resolver) (defaultPort : UInt16) (families : Families)
    (entry : List Char) : List Endpoint × Event :=
  match ofEntry resolver defaultPort families entry with
  | .ok found => (found, .endpointAdded (String.ofList entry) found.length)
  | .error e => ([], .endpointSkipped (String.ofList entry) e)

def ofList (resolver : Resolver) (defaultPort : UInt16) (families : Families) (s : String) :
    List Endpoint × List Event :=
  let read := (entries s.toList).map (ofEntryOrSkip resolver defaultPort families)
  ((read.map Prod.fst).flatten, read.map Prod.snd)

end Endpoint

end EdgeScan
