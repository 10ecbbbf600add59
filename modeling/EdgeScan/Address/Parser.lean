import EdgeScan.Address.Basic
import EdgeScan.Text.Number

/-!
Reading addresses and endpoints. The readers take what they need from the front of the text and
hand on the rest; the functions named after a type want the whole text.
-/

namespace EdgeScan

open Text

/-- The points on which notations for addresses differ. -/
structure AddressNotation where
  /-- Whether an IPv4 octet may be written with leading zeros. -/
  octetZeros : Bool
  /-- Whether `::` may stand between eight groups, for no group at all. -/
  emptyGap : Bool
deriving DecidableEq, Repr

def AddressNotation.strict : AddressNotation := ⟨false, false⟩

namespace AddressNotation

variable (style : AddressNotation)

def readOctets? : Nat → Bool → List Char → Option (List Nat × List Char)
  | 0, _, s => some ([], s)
  | n + 1, isFirst, s => do
    let s ← if isFirst then some s else expect? '.' s
    let (octet, s) ← NumberRule.read? ⟨10, some 3, style.octetZeros, 256⟩ s
    let (octets, s) ← readOctets? n false s
    some (octet :: octets, s)

def readIPv4? (s : List Char) : Option (IPv4 × List Char) := do
  let (octets, s) ← style.readOctets? 4 true s
  some (IPv4.ofNat (octets.foldl (fun n o => n * 256 + o) 0), s)

/-- IPv6 groups read from a text, whether they end in an embedded IPv4 address, and what is left
of the text. -/
structure GroupRun where
  groups : List Nat
  endsInIPv4 : Bool
  rest : List Char

/-- Reads up to `n` groups, each behind a colon unless it is the first. An IPv4 address counts as
two groups and ends the run. -/
def readGroups : Nat → Bool → List Char → GroupRun
  | 0, _, s => ⟨[], false, s⟩
  | n + 1, isFirst, s =>
    match (if isFirst then some s else expect? ':' s) with
    | none => ⟨[], false, s⟩
    | some body =>
      match (if n = 0 then none else style.readIPv4? body) with
      | some (ip, rest) => ⟨[ip.toNat / 0x10000, ip.toNat % 0x10000], true, rest⟩
      | none =>
        match NumberRule.read? ⟨16, some 4, true, 0x10000⟩ body with
        | none => ⟨[], false, s⟩
        | some (group, rest) =>
          let run := readGroups n false rest
          ⟨group :: run.groups, run.endsInIPv4, run.rest⟩

/-- Reads an IPv6 address. An embedded IPv4 address may only stand at its end. -/
def readIPv6? (s : List Char) : Option (IPv6 × List Char) :=
  let head := style.readGroups 8 true s
  if head.groups.length = 8 then some (IPv6.ofGroups head.groups, head.rest)
  else if head.endsInIPv4 then none
  else do
    let s ← expect? ':' head.rest
    let s ← expect? ':' s
    let room := if style.emptyGap then 8 - head.groups.length else 7 - head.groups.length
    let tail := style.readGroups room true s
    let gap := List.replicate (8 - head.groups.length - tail.groups.length) 0
    some (IPv6.ofGroups (head.groups ++ gap ++ tail.groups), tail.rest)

end AddressNotation

/-- The result of a reader that has to use up the whole text. -/
def wholeText {α : Type} : Option (α × List Char) → Option α
  | some (a, []) => some a
  | _ => none

def IPv4.parse? (s : List Char) : Option IPv4 :=
  wholeText (AddressNotation.strict.readIPv4? s)

def IPv6.parse? (s : List Char) : Option IPv6 :=
  wholeText (AddressNotation.strict.readIPv6? s)

def Address.parse? (s : List Char) : Option Address :=
  match AddressNotation.strict.readIPv4? s with
  | some (ip, rest) => if rest.isEmpty then some (.v4 ip) else none
  | none => (IPv6.parse? s).map .v6

namespace Endpoint

def readPort? (s : List Char) : Option (UInt16 × List Char) := do
  let s ← expect? ':' s
  let (port, s) ← NumberRule.read? ⟨10, none, true, 0x10000⟩ s
  some (port.toUInt16, s)

def readV4? (s : List Char) : Option (Endpoint × List Char) := do
  let (ip, s) ← AddressNotation.strict.readIPv4? s
  let (port, s) ← readPort? s
  some (v4 ip port, s)

/-- Reads a percent sign and a decimal scope, if they are there. -/
def readScope (s : List Char) : UInt32 × List Char :=
  match expect? '%' s >>= NumberRule.read? ⟨10, none, true, 0x100000000⟩ with
  | some (scope, rest) => (scope.toUInt32, rest)
  | none => (0, s)

/-- Reads an IPv6 address in brackets, with or without a scope, and a port. -/
def readV6? (s : List Char) : Option (Endpoint × List Char) := do
  let s ← expect? '[' s
  let (ip, s) ← AddressNotation.strict.readIPv6? s
  let (scope, s) := readScope s
  let s ← expect? ']' s
  let (port, s) ← readPort? s
  some (v6 ip port scope, s)

def parse? (s : List Char) : Option Endpoint :=
  match readV4? s with
  | some (e, rest) => if rest.isEmpty then some e else none
  | none => wholeText (readV6? s)

end Endpoint

end EdgeScan
