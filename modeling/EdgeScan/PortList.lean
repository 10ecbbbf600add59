import EdgeScan.Distinct
import EdgeScan.Error
import EdgeScan.Text.Blank
import EdgeScan.Text.Numeral
import EdgeScan.Text.Split

/-!
Port lists. A list is written as items between commas or line ends; an item is a port or an
inclusive range `a-b`, and what follows `#` on a line is a comment. Reading a list gives the ports
of its items in order, each port where it occurs first; the first item without a meaning makes the
whole list fail, with the number of its line.
-/

namespace EdgeScan

open Text

inductive PortError
  | numeral (error : NumeralError)
  | outOfRange (value : Nat)
deriving DecidableEq, Repr

def PortError.message : PortError → String
  | numeral error => error.message
  | outOfRange value => s!"port out of range: {value}"

def readPort (s : List Char) : Except PortError UInt16 :=
  match numeral 0xFFFFFFFF s with
  | .error e => .error (.numeral e)
  | .ok n => if n = 0 ∨ n > 65535 then .error (.outOfRange n) else .ok n.toUInt16

namespace PortList

inductive ItemError
  | badPort (text : List Char) (error : PortError)
  | badStart (text : List Char) (error : PortError)
  | badEnd (text : List Char) (error : PortError)
  | descending (first last : UInt16)
deriving DecidableEq, Repr

/-- An item without a meaning, and the line it stands on. -/
structure ListError where
  line : Nat
  item : ItemError
deriving DecidableEq, Repr

/-- The items of a text in reading order, each with the number of its line. -/
def items (s : List Char) : List (Nat × List Char) :=
  (lines s).zipIdx.flatMap fun (line, i) =>
    ((pieces ',' (trim (before '#' line))).map trim).filterMap fun item =>
      if item.isEmpty then none else some (i + 1, item)

def range (first last : UInt16) : List UInt16 :=
  (List.range (last.toNat + 1 - first.toNat)).map fun i => (first.toNat + i).toUInt16

/-- The meaning of an item: a port, or the ports of a range. -/
def itemPorts (item : List Char) : Except ItemError (List UInt16) :=
  match cutFirst? '-' item with
  | none =>
    match readPort item with
    | .error e => .error (.badPort item e)
    | .ok p => .ok [p]
  | some (a, b) =>
    match readPort (trim a) with
    | .error e => .error (.badStart a e)
    | .ok first =>
      match readPort (trim b) with
      | .error e => .error (.badEnd b e)
      | .ok last => if last < first then .error (.descending first last) else .ok (range first last)

def numberedPorts (item : Nat × List Char) : Except ListError (List UInt16) :=
  (itemPorts item.2).mapError (⟨item.1, ·⟩)

def parse (s : String) : Except ListError (List UInt16) := do
  let ports ← (items s.toList).mapM numberedPorts
  return distinct ports.flatten

def ListError.failure (e : ListError) : Failure :=
  match e.item with
  | .badPort text error =>
    ⟨[s!"line {e.line}: invalid port value: " ++ String.ofList text], error.message⟩
  | .badStart text error =>
    ⟨[s!"line {e.line}: invalid start in range: " ++ String.ofList text], error.message⟩
  | .badEnd text error =>
    ⟨[s!"line {e.line}: invalid end in range: " ++ String.ofList text], error.message⟩
  | .descending first last =>
    .of s!"line {e.line}: invalid range {first.toNat}-{last.toNat} (start > end)"

end PortList

end EdgeScan
