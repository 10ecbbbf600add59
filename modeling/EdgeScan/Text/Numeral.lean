/-!
Unsigned decimal numerals with a greatest value: one leading `+` and any number of leading zeros
are allowed. Digits are read from the left, so a wrong character that stands behind an overflow
is not reached.
-/

namespace EdgeScan.Text

/-- Why a text is not an unsigned number below a bound. -/
inductive NumeralError
  | empty
  | invalidDigit
  | tooLarge
deriving DecidableEq, Repr

def NumeralError.message : NumeralError → String
  | empty => "cannot parse integer from empty string"
  | invalidDigit => "invalid digit found in string"
  | tooLarge => "number too large to fit in target type"

/-- The value of an ASCII digit in a radix of at most 36, letters counting from ten in either
case. -/
def digit? (radix : Nat) (c : Char) : Option Nat :=
  let d :=
    if '0' ≤ c ∧ c ≤ '9' then c.toNat - '0'.toNat
    else if 'a' ≤ c ∧ c ≤ 'z' then c.toNat - 'a'.toNat + 10
    else if 'A' ≤ c ∧ c ≤ 'Z' then c.toNat - 'A'.toNat + 10
    else radix
  if d < radix then some d else none

/-- Appends decimal digits to a number, staying at or below `max`. -/
def appendDigits (max : Nat) : Nat → List Char → Except NumeralError Nat
  | value, [] => .ok value
  | value, c :: rest =>
    match digit? 10 c with
    | none => .error .invalidDigit
    | some d =>
      if value * 10 + d ≤ max then appendDigits max (value * 10 + d) rest
      else .error .tooLarge

def numeral (max : Nat) : List Char → Except NumeralError Nat
  | [] => .error .empty
  | ['+'] => .error .invalidDigit
  | '+' :: rest => appendDigits max 0 rest
  | s => appendDigits max 0 s

end EdgeScan.Text
