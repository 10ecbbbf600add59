import EdgeScan.Decimal.Binary

/-!
Decimal text with a fixed number of places. The exact binary value is rounded once, a tie going
to the even neighbour.
-/

namespace EdgeScan.Decimal

/-- The quotient of two numbers, rounded to the nearest; a tie goes to the even neighbour. -/
def roundDiv (num den : Nat) : Nat :=
  let q := num / den
  let twice := 2 * (num % den)
  if twice < den ∨ (twice = den ∧ q % 2 = 0) then q else q + 1

def fixedText (places : Nat) (b : Binary) : String :=
  let (num, den) := b.ratio (-(places : Int))
  let scaled := roundDiv num den
  let fraction := toString (scaled % Nat.pow 10 places)
  toString (scaled / Nat.pow 10 places) ++ "." ++ "".pushn '0' (places - fraction.length) ++ fraction

/-- A rounded quotient is within half a unit of the exact one. -/
theorem roundDiv_bounds (num den : Nat) (h : 0 < den) :
    2 * num ≤ 2 * den * roundDiv num den + den ∧ 2 * den * roundDiv num den ≤ 2 * num + den := by
  have e := Nat.div_add_mod num den
  have l := Nat.mod_lt num h
  have m : 2 * den * (num / den) = 2 * (den * (num / den)) := Nat.mul_assoc ..
  have m' : 2 * den * (num / den + 1) = 2 * (den * (num / den)) + 2 * den := by
    rw [Nat.mul_add, m, Nat.mul_one]
  unfold roundDiv
  simp only
  split <;> rename_i hc
  · rw [m]; omega
  · rw [m']; omega

end EdgeScan.Decimal
