import EdgeScan.Random.Uniform

/-!
Sequences that visit every number below a modulus exactly once before they repeat. The next number
is an affine image of the last one modulo `m`; by the theorem of Hull and Dobell the cycle is full
exactly if the increment is coprime with `m`, and the multiplier less one is divisible by every
prime factor of `m`, and by 4 if `m` is.
-/

namespace EdgeScan

/-- An affine map modulo `modulus`, and the number it stands at. -/
structure FullCycle where
  modulus : UInt64
  multiplier : UInt64
  increment : UInt64
  state : UInt64
deriving DecidableEq, Repr

namespace FullCycle

def gcd (a b : UInt64) : UInt64 :=
  if _h : b ≠ 0 then gcd b (a % b) else a
termination_by b.toNat
decreasing_by
  have h : b ≠ 0 := ‹_›
  rw [UInt64.toNat_mod]
  exact Nat.mod_lt _ (Nat.pos_of_ne_zero fun e => h (UInt64.toNat_inj.mp (by simpa using e)))

def removeFactor (n p : UInt64) : UInt64 :=
  if _h : 2 ≤ p.toNat ∧ n ≠ 0 ∧ n % p = 0 then removeFactor (n / p) p else n
termination_by n.toNat
decreasing_by
  have h : 2 ≤ p.toNat ∧ n ≠ 0 ∧ n % p = 0 := ‹_›
  rw [UInt64.toNat_div]
  refine Nat.div_lt_self ?_ h.1
  exact Nat.pos_of_ne_zero fun e => h.2.1 (UInt64.toNat_inj.mp (by simpa using e))

/-- Multiplies `product` by the distinct prime factors of `n`, all of which are at least `p`. -/
def radicalFrom (product n p : UInt64) : UInt64 :=
  if h : p < 0x100000000 ∧ p * p ≤ n then
    if n % p = 0 then radicalFrom (product * p) (removeFactor n p) (p + 1)
    else radicalFrom product n (p + 1)
  else if 1 < n then product * n
  else product
termination_by 0x100000000 - p.toNat
decreasing_by
  all_goals
    have := UInt64.lt_iff_toNat_lt.mp h.1
    simp only [UInt64.toNat_add, UInt64.reduceToNat] at *
    omega

def radical (n : UInt64) : UInt64 :=
  radicalFrom 1 n 2

/-- The least number that the multiplier less one has to be a multiple of. -/
def step (m : UInt64) : UInt64 :=
  let r := radical m
  if m % 4 = 0 ∧ r % 4 ≠ 0 then r * 2 else r

def drawBelow (m : UInt64) : Draw UInt64 := do
  let n ← Draw.below 8 m.toNat
  return n.toUInt64

/-- Draws an increment below `m`, again while it shares a factor with `m`. -/
def drawIncrement (m : UInt64) : Draw UInt64 :=
  Draw.retry (fun c => gcd c m == 1) (drawBelow m) (1 % m) Draw.attempts

/-- Draws a full cycle over the numbers below `modulus` and a place to start at; the modulus 0
counts as 1. -/
def draw (modulus : UInt64) : Draw FullCycle := do
  let m := max modulus 1
  let step := step m
  let k ← Draw.below 8 ((m / step).toNat + 1)
  let multiplier := ((1 + k * step.toNat) % m.toNat).toUInt64
  let increment ← drawIncrement m
  let state ← drawBelow m
  return ⟨m, multiplier, increment, state⟩

def next (c : FullCycle) : UInt64 :=
  ((c.multiplier.toNat * c.state.toNat + c.increment.toNat) % c.modulus.toNat).toUInt64

def advance (c : FullCycle) : FullCycle :=
  { c with state := c.next }

def values (c : FullCycle) : Nat → List UInt64
  | 0 => []
  | n + 1 => c.next :: values c.advance n

/-- Whether a multiplier and an increment make a full cycle modulo `m`. They need not be reduced;
the modulus 0 shares a factor with every increment but 1. -/
def isFull (m multiplier increment : UInt64) : Bool :=
  if gcd increment m ≠ 1 then false
  else
    let modulus := max m.toNat 1
    let a := (multiplier.toNat % modulus + modulus - 1) % modulus
    a % (radical m).toNat == 0 && !(m % 4 == 0 && a % 4 != 0)

end FullCycle

end EdgeScan
