import EdgeScan.Json.Reader

/-!
Numbers in a JSON document. A whole number is exact as long as it has 64 bits; all other numbers
are read as floating-point numbers: the digits that fit 64 bits, scaled by a power of ten.
-/

namespace EdgeScan

inductive JsonNumber
  | natural (n : Nat)
  | negative (n : Int)
  | float (x : Float)
deriving Repr

def JsonNumber.found : JsonNumber → JsonFound
  | natural n => .integer n
  | negative n => .integer n
  | float x => .float x

namespace JsonReader

/-- The greatest whole number that is read exactly. -/
def greatest : Nat := 0xFFFFFFFFFFFFFFFF

/-- Appends decimal digits to a number as long as it stays at or below `limit`, and gives the
digits that are left. -/
def appendDigits (limit : Nat) : Nat → List UInt8 → Nat × List UInt8
  | n, [] => (n, [])
  | n, b :: rest =>
    let m := n * 10 + (b.toNat - (code '0').toNat)
    if m ≤ limit then appendDigits limit m rest else (n, b :: rest)

def powerOfTen (k : Nat) : Float := Float.ofScientific 1 false k

/-- A number divided by ten to the power of `k`, in steps that floating-point numbers hold. -/
def divideByPower (x : Float) (k : Nat) : Float :=
  if h : k ≤ 308 then x / powerOfTen k
  else if x == 0.0 then x
  else divideByPower (x / powerOfTen 308) (k - 308)
termination_by k
decreasing_by omega

def scale (negative : Bool) (significand : Nat) (exponent : Int) : JsonReader JsonNumber := do
  let x := significand.toUInt64.toFloat
  let signed := fun (y : Float) => JsonNumber.float (if negative then -y else y)
  if exponent < 0 then return signed (divideByPower x exponent.natAbs)
  else if exponent.natAbs ≤ 308 then
    let y := x * powerOfTen exponent.natAbs
    if y.isInf then fail .numberOutOfRange else return signed y
  else if x == 0.0 then return signed x
  else fail .numberOutOfRange

def digits : JsonReader (List UInt8) := do
  let ds := (← get).rest.takeWhile isDigit
  skip ds.length
  return ds

def greatestExponent : Nat := 0x7FFFFFFF

def exponentPart (negative : Bool) (significand : Nat) (exponent : Int) :
    JsonReader JsonNumber := do
  skip 1
  let down ← passes '-'
  if !down then
    let _ ← passes '+'
  match ← next with
  | none => fail (.endsIn .value)
  | some first =>
    if !isDigit first then fail .invalidNumber
    else
      let ds := (← get).rest.takeWhile isDigit
      let (e, left) := appendDigits greatestExponent 0 (first :: ds)
      if left = [] then
        skip ds.length
        scale negative significand (if down then exponent - e else exponent + e)
      else
        skip (ds.length - left.length + 1)
        if significand ≠ 0 && !down then fail .numberOutOfRange
        else
          let _ ← digits
          return .float (if negative then -0.0 else 0.0)

def floatEnd (negative : Bool) (significand : Nat) (exponent : Int) : JsonReader JsonNumber := do
  let b ← peek
  if b == some (code 'e') || b == some (code 'E') then exponentPart negative significand exponent
  else scale negative significand exponent

/-- Reads the places of a number, whose point comes next. Places that do not fit 64 bits are
dropped. -/
def places (negative : Bool) (significand : Nat) (exponent : Int) : JsonReader JsonNumber := do
  skip 1
  let ds ← digits
  if ds.isEmpty then
    match ← peek with
    | some _ => failAhead .invalidNumber
    | none => failAhead (.endsIn .value)
  else
    let (significand, left) := appendDigits greatest significand ds
    floatEnd negative significand (exponent - ((ds.length - left.length : Nat) : Int))

def number (negative : Bool) : JsonReader JsonNumber := do
  match ← next with
  | none => fail (.endsIn .value)
  | some first =>
    if !isDigit first then fail .invalidNumber
    else
      let more := (← get).rest.takeWhile isDigit
      if first = code '0' ∧ more ≠ [] then failAhead .invalidNumber
      else
        skip more.length
        let (significand, left) := appendDigits greatest 0 (first :: more)
        let b ← peek
        if b == some (code '.') then places negative significand left.length
        else if b == some (code 'e') || b == some (code 'E') then
          exponentPart negative significand left.length
        else if left ≠ [] then scale negative significand left.length
        else if !negative then return .natural significand
        else if significand = 0 ∨ 0x8000000000000000 < significand then
          return .float (-significand.toUInt64.toFloat)
        else return .negative (-significand)

end JsonReader

end EdgeScan
