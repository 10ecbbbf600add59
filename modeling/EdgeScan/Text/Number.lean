import EdgeScan.Text.Numeral

/-!
Numbers inside a longer text: a bounded run of digits in some radix is read off the front, and
the rest of the text is handed on.
-/

namespace EdgeScan.Text

/-- What a run of digits has to look like to be read as a number. -/
structure NumberRule where
  radix : Nat
  /-- The greatest number of digits, if there is one. -/
  digits : Option Nat
  leadingZeros : Bool
  /-- The number has to lie below this bound. -/
  limit : Nat
deriving Repr

def digitsValue (radix : Nat) (value : Nat) (ds : List Char) : Nat :=
  ds.foldl (fun n c => n * radix + (digit? radix c).getD 0) value

/-- Reads the longest run of digits at the front of the text, if it obeys the rule. -/
def NumberRule.read? (rule : NumberRule) (s : List Char) : Option (Nat × List Char) :=
  let isDigit := fun c => (digit? rule.radix c).isSome
  let ds := s.takeWhile isDigit
  let value := digitsValue rule.radix 0 ds
  if ds.isEmpty || (rule.digits.any (ds.length > ·)) then none
  else if !rule.leadingZeros && ds.head? == some '0' && ds.length > 1 then none
  else if value < rule.limit then some (value, s.dropWhile isDigit)
  else none

def expect? (c : Char) : List Char → Option (List Char)
  | d :: rest => if d = c then some rest else none
  | [] => none

end EdgeScan.Text
