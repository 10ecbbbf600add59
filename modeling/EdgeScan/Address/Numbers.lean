import EdgeScan.Address.Basic
import EdgeScan.Text.Number
import EdgeScan.Text.Split

/-!
IPv4 addresses in the loose notation of one to four numbers with dots between them. Each number
is decimal, octal behind a `0`, or hexadecimal behind `0x`. All numbers but the last stand for one
octet each; the last fills all octets that remain.
-/

namespace EdgeScan.IPv4

open Text

/-- Reads one number in its radix; it may use up to 32 bits. -/
def readPart? (s : List Char) : Option (Nat × List Char) :=
  match s with
  | '0' :: x :: rest =>
    if (x = 'x' ∨ x = 'X') ∧ (rest.head?.bind (digit? 16)).isSome then
      NumberRule.read? ⟨16, none, true, 0x100000000⟩ rest
    else NumberRule.read? ⟨8, none, true, 0x100000000⟩ s
  | _ => NumberRule.read? ⟨10, none, true, 0x100000000⟩ s

def part? (s : List Char) : Option Nat :=
  match readPart? s with
  | some (n, []) => some n
  | _ => none

/-- The address spelled by its parts: `left` octets are still to be filled. -/
def ofParts? (left : Nat) (value : Nat) : List Nat → Option Nat
  | [] => none
  | [last] => if last < Nat.pow 256 left then some (value * Nat.pow 256 left + last) else none
  | p :: ps =>
    match left with
    | 0 => none
    | left + 1 => if p < 256 then ofParts? left (value * 256 + p) ps else none

def ofNumbers? (s : List Char) : Option IPv4 := do
  let parts ← (pieces '.' s).mapM part?
  if parts.length ≤ 4 then (ofParts? 4 0 parts).map IPv4.ofNat else none

end EdgeScan.IPv4
