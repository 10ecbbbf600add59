/-!
Non-negative binary fractions `mantissa * 2 ^ exponent`, as floating-point numbers are, and exact
comparison of their multiples with decimal numbers. All work is done on natural numbers.
-/

namespace EdgeScan.Decimal

/-- The number `mantissa * 2 ^ exponent`. -/
structure Binary where
  mantissa : Nat
  exponent : Int
deriving DecidableEq, Repr

/-- The number `digits * 10 ^ exponent`. -/
structure Scaled where
  digits : Nat
  exponent : Int
deriving DecidableEq, Repr

namespace Binary

def leastNormal : Nat := 0x10000000000000

def ofFloat (x : Float) : Binary :=
  let bits := x.toBits.toNat
  let fraction := bits % leastNormal
  let biased := bits / leastNormal % 2048
  if biased = 0 then ⟨fraction, -1074⟩ else ⟨leastNormal + fraction, (biased : Int) - 1075⟩

/-- Two whole numbers in the ratio of `b` to `10 ^ k`. -/
def ratio (b : Binary) (k : Int) : Nat × Nat :=
  (b.mantissa * Nat.pow 2 b.exponent.toNat * Nat.pow 10 (-k).toNat,
    Nat.pow 2 (-b.exponent).toNat * Nat.pow 10 k.toNat)

/-- The whole number of times that `10 ^ k` goes into `b`. -/
def quotient (b : Binary) (k : Int) : Nat :=
  (b.ratio k).1 / (b.ratio k).2

def atLeast (b : Binary) (d : Scaled) : Bool :=
  d.digits * (b.ratio d.exponent).2 ≤ (b.ratio d.exponent).1

def atMost (b : Binary) (d : Scaled) : Bool :=
  (b.ratio d.exponent).1 ≤ d.digits * (b.ratio d.exponent).2

def equals (b : Binary) (d : Scaled) : Bool :=
  (b.ratio d.exponent).1 == d.digits * (b.ratio d.exponent).2

/-- The exponent of the highest decimal digit of a positive number. It is estimated from the
number of bits and set right by comparison. -/
def decimalExponent (b : Binary) : Int :=
  let log2 : Int := b.mantissa.log2 + b.exponent
  let estimate := Int.fdiv (log2 * 30103) 100000 - 1
  if b.atLeast ⟨1, estimate + 2⟩ then estimate + 2
  else if b.atLeast ⟨1, estimate + 1⟩ then estimate + 1
  else estimate

end Binary

end EdgeScan.Decimal
