import EdgeScan.Address.Basic

/-!
The text of addresses and endpoints. IPv4 addresses are written with dots. IPv6 addresses are
written in lower case with the longest run of at least two zero groups left out, the first such
run on a tie; addresses that embed an IPv4 address behind `::ffff:` show it with dots.
-/

namespace EdgeScan

def IPv4.text (ip : IPv4) : String :=
  ".".intercalate (ip.octets.map fun o => toString o.toNat)

namespace IPv6

/-- Length and position of the longest run of zeros, the first one on a tie. -/
structure ZeroRun where
  start : Nat
  length : Nat
deriving DecidableEq, Repr

/-- Finds the longest run of zeros: `current` is the run that ends just before position `i`. -/
def longestZeroRun (i : Nat) (current best : ZeroRun) : List Nat → ZeroRun
  | [] => best
  | g :: rest =>
    if g = 0 then
      let current := ⟨if current.length = 0 then i else current.start, current.length + 1⟩
      let best := if current.length > best.length then current else best
      longestZeroRun (i + 1) current best rest
    else longestZeroRun (i + 1) ⟨0, 0⟩ best rest

def groupsText (groups : List Nat) : String :=
  ":".intercalate (groups.map fun g => String.ofList (Nat.toDigits 16 g))

/-- The IPv4 address embedded behind `::ffff:`, if the address is of that form. -/
def mappedIPv4? (ip : IPv6) : Option IPv4 :=
  if ip.toNat / 0x100000000 = 0xffff then some (IPv4.ofNat (ip.toNat % 0x100000000)) else none

def text (ip : IPv6) : String :=
  match ip.mappedIPv4? with
  | some inner => "::ffff:" ++ inner.text
  | none =>
    let groups := ip.groups
    let run := longestZeroRun 0 ⟨0, 0⟩ ⟨0, 0⟩ groups
    if run.length > 1 then
      groupsText (groups.take run.start) ++ "::" ++
        groupsText (groups.drop (run.start + run.length))
    else groupsText groups

end IPv6

def Address.text : Address → String
  | v4 ip => ip.text
  | v6 ip => ip.text

/-- The text of an endpoint: IPv6 addresses stand in brackets, together with a scope other than
0. -/
def Endpoint.text : Endpoint → String
  | v4 ip port => s!"{ip.text}:{port.toNat}"
  | v6 ip port scope =>
    if scope = 0 then s!"[{ip.text}]:{port.toNat}"
    else s!"[{ip.text}%{scope.toNat}]:{port.toNat}"

end EdgeScan
