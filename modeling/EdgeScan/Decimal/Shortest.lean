import EdgeScan.Decimal.Binary

/-!
The shortest decimal number that reads back as a given floating-point number, and its text. Grids
of 1, 2, … 17 significant digits are tried in turn; on each only the two neighbours of the number
can be the one looked for. The first grid with a hit wins, of two hits the nearer one.
-/

namespace EdgeScan.Decimal

/-- The numbers that round to a floating-point number lie between `low` and `high`. -/
structure RoundingInterval where
  low : Binary
  high : Binary
  closed : Bool

namespace Binary

/-- The numbers that are rounded to `b`: up to half the distance to its neighbours, the ends
included if the mantissa is even. Below a power of two the neighbour is only half as far. -/
def roundingInterval (b : Binary) : RoundingInterval :=
  let below := if b.mantissa = leastNormal ∧ -1074 < b.exponent then 1 else 2
  ⟨⟨4 * b.mantissa - below, b.exponent - 2⟩, ⟨4 * b.mantissa + 2, b.exponent - 2⟩,
    b.mantissa % 2 = 0⟩

end Binary

def RoundingInterval.contains (i : RoundingInterval) (d : Scaled) : Bool :=
  i.low.atMost d && i.high.atLeast d && (i.closed || !(i.low.equals d || i.high.equals d))

namespace Binary

/-- The nearer of the two neighbours of `b` on the grid of `10 ^ k` that lie in its interval; an
exact tie goes to the even one. -/
def nearestOnGrid? (b : Binary) (k : Int) : Option Scaled :=
  let below : Scaled := ⟨b.quotient k, k⟩
  let above : Scaled := ⟨b.quotient k + 1, k⟩
  let interval := b.roundingInterval
  match interval.contains below, interval.contains above with
  | true, false => some below
  | false, true => some above
  | false, false => none
  | true, true =>
    let (num, den) := b.ratio k
    let twice := 2 * (num % den)
    if twice < den ∨ (twice = den ∧ below.digits % 2 = 0) then some below else some above

/-- The shortest decimal number that reads back as `b`. -/
def shortest (b : Binary) : Scaled :=
  let top := b.decimalExponent
  let found := (List.range 17).findSome? fun (n : Nat) => b.nearestOnGrid? (top - n)
  found.getD ⟨b.quotient (top - 16), top - 16⟩

end Binary

def Scaled.normalize (d : Scaled) : Nat → Scaled
  | 0 => d
  | fuel + 1 =>
    if d.digits ≠ 0 ∧ d.digits % 10 = 0 then
      Scaled.normalize ⟨d.digits / 10, d.exponent + 1⟩ fuel
    else d

/-- How floating-point numbers are written: positionally while the exponent of the highest digit
lies between two bounds, else with an exponent. -/
structure FloatFormat where
  leastPositional : Int
  greatestPositional : Int
deriving DecidableEq, Repr

def zeros (n : Nat) : String := "".pushn '0' n

/-- The text of a positive decimal number. A whole number written positionally ends in `.0`. -/
def FloatFormat.scaledText (format : FloatFormat) (d : Scaled) : String :=
  let d := d.normalize 20
  let digits := toString d.digits
  let count := digits.length
  let top := d.exponent + count - 1
  if top < format.leastPositional ∨ format.greatestPositional < top then
    let sign := if top < 0 then "-" else "+"
    let fraction := if count = 1 then "" else "." ++ String.ofList (digits.toList.drop 1)
    String.ofList (digits.toList.take 1) ++ fraction ++ "e" ++ sign ++ toString top.natAbs
  else if top < 0 then "0." ++ zeros (top.natAbs - 1) ++ digits
  else
    let whole := top.toNat + 1
    if count ≤ whole then digits ++ zeros (whole - count) ++ ".0"
    else String.ofList (digits.toList.take whole) ++ "." ++ String.ofList (digits.toList.drop whole)

def FloatFormat.text (format : FloatFormat) (x : Float) : String :=
  let b := Binary.ofFloat x
  if b.mantissa = 0 then "0.0" else format.scaledText b.shortest

end EdgeScan.Decimal
