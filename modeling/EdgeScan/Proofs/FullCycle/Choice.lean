import EdgeScan.Proofs.FullCycle.Criterion
import EdgeScan.Proofs.FullCycle.Draws
import EdgeScan.Proofs.FullCycle.TrialDivision

/-!
The choice of a cycle. Whatever numbers are drawn from their ranges, the cycle goes through all numbers
below the modulus and round again, and nothing that is computed for it wraps around. The multipliers
and increments that can be drawn are exactly those that the check accepts.
-/
namespace EdgeScan.FullCycle

open Function

/-- Nothing that is computed for a cycle, or on the way along it, wraps around: trial division and the
step stay below 64 bits, and products of two words with what is added to them below 128 bits. -/
structure Draws.Fits {m : UInt64} (d : Draws m) (x : FullCycle) : Prop where
  radical : TrialDivision 1 m.toNat 2 (FullCycle.radical m).toNat
  double : 4 ∣ m.toNat → ¬4 ∣ (FullCycle.radical m).toNat →
    (FullCycle.radical m).toNat * 2 < 2 ^ 64
  multiplier : 1 + d.steps * (step m).toNat < 2 ^ 128
  next : ∀ n, x.multiplier.toNat * (advance^[n] x).state.toNat + x.increment.toNat < 2 ^ 128

lemma mul_add_lt (a b c : UInt64) : a.toNat * b.toNat + c.toNat < 2 ^ 128 := by
  have ha : a.toNat ≤ 2 ^ 64 - 1 := Nat.le_pred_of_lt a.toNat_lt
  have hb : b.toNat ≤ 2 ^ 64 - 1 := Nat.le_pred_of_lt b.toNat_lt
  have product := Nat.mul_le_mul ha hb
  have := c.toNat_lt
  omega

namespace Draws

variable {m : UInt64} {d : Draws m} {x : FullCycle}

lemma steps_mul_le (d : Draws m) : d.steps * (step m).toNat ≤ m.toNat := by
  have factor := d.steps_le
  rw [UInt64.toNat_div] at factor
  exact (Nat.mul_le_mul_right _ factor).trans (Nat.div_mul_le_self _ _)

theorem fits (d : Draws m) (x : FullCycle) : d.Fits x where
  radical := trialDivision_radical d.modulus_ne_zero
  double := radical_mul_two_lt d.modulus_ne_zero
  multiplier := by
    have := d.steps_mul_le
    have := m.toNat_lt
    omega
  next n := mul_add_lt _ _ _

theorem iterate_modulus (h : d.cycle? = some x) : advance^[m.toNat] x = x := by
  obtain ⟨c, -, -, -, modulus, -, -, state⟩ := d.exists_of_cycle? h
  have below : x.state.toNat < x.modulus.toNat := by
    rw [state, modulus]
    exact d.start_lt
  have back := (d.sound h).iterate_modulus below
  rwa [modulus] at back

theorem values_perm (h : d.cycle? = some x) :
    ((x.values m.toNat).map UInt64.toNat).Perm (List.range m.toNat) := by
  obtain ⟨c, -, -, -, modulus, -⟩ := d.exists_of_cycle? h
  have perm := (d.sound h).values_perm
  rwa [modulus] at perm

end Draws

/-- Every cycle that is drawn is made of numbers from their ranges. And of whatever numbers a cycle is
made, it goes through all numbers below the modulus, is then where it started and gives the same
numbers again, and nothing that is computed wraps around. The modulus 0 counts as 1. -/
theorem values_of_draws (m : UInt64) :
    (∀ source, ∃ d : Draws (max m 1), d.cycle? = some ((draw m).run source).1) ∧
    ∀ (d : Draws (max m 1)) (x : FullCycle), d.cycle? = some x →
      let size := (max m 1).toNat
      ((x.values size).map UInt64.toNat).Perm (List.range size) ∧ advance^[size] x = x ∧
        (∀ n, x.values (size + n) = x.values size ++ x.values n) ∧ d.Fits x := by
  refine ⟨fun source => ?_, fun d x made => ?_⟩
  · rw [← draw_max_one]
    exact always_exists_draws (max_one_ne_zero m) source
  · have back := Draws.iterate_modulus made
    refine ⟨Draws.values_perm made, back, fun n => ?_, d.fits x⟩
    rw [values_add, back]

/-- Modulo 16, the increments 6 and 8 are drawn again, and the cycle with the multiplier 13 and the
increment 5 goes through all numbers. -/
theorem values_of_draws_sixteen :
    let d : Draws (max 16 1) := ⟨3, [6, 8, 5], 9, by decide +kernel, by decide, by decide⟩
    let x : FullCycle := ⟨16, 13, 5, 9⟩
    d.cycle? = some x ∧ ((x.values 16).map UInt64.toNat).Perm (List.range 16) ∧
      advance^[16] x = x ∧ (∀ n, x.values (16 + n) = x.values 16 ++ x.values n) ∧ d.Fits x := by
  intro d x
  have made : d.cycle? = some x := by decide +kernel
  exact ⟨made, (values_of_draws 16).2 d x made⟩

/-! Multipliers and increments -/

def pair (x : FullCycle) : UInt64 × UInt64 := (x.multiplier, x.increment)

/-- The multipliers and increments below `m` that the check accepts. -/
def acceptedPairs (m : UInt64) : Set (UInt64 × UInt64) :=
  {p | p.1 < m ∧ p.2 < m ∧ isFull m p.1 p.2 = true}

section

variable {m : UInt64} (hm : m ≠ 0)
include hm

theorem exists_source_iff {x : FullCycle} :
    (∃ source, ((draw m).run source).1 = x) ↔ ∃ d : Draws m, d.cycle? = some x := by
  constructor
  · rintro ⟨source, rfl⟩
    exact always_exists_draws hm source
  · rintro ⟨d, made⟩
    obtain ⟨source, -, drawn⟩ := (Draws.canGive made).exists_source
    exact ⟨source, drawn⟩

theorem exists_steps {a : UInt64} (below : a < m) (dvd : (step m).toNat ∣ before m.toNat a.toNat) :
    ∃ k ≤ (m / step m).toNat, (1 + k * (step m).toNat) % m.toNat = a.toNat := by
  have pos : 0 < m.toNat := toNat_pos hm
  refine ⟨before m.toNat a.toNat / (step m).toNat, ?_, ?_⟩
  · rw [UInt64.toNat_div]
    exact Nat.div_le_div_right (before_lt pos).le
  · rw [Nat.div_mul_cancel dvd, Nat.add_comm]
    exact Nat.mod_eq_of_modEq (before_add_one_modEq pos) (UInt64.lt_iff_toNat_lt.mp below)

/-- Numbers from their ranges make exactly the multipliers and increments that the check accepts. -/
theorem exists_draws_iff {p : UInt64 × UInt64} :
    (∃ (d : Draws m) (x : FullCycle), d.cycle? = some x ∧ x.pair = p) ↔ p ∈ acceptedPairs m := by
  constructor
  · rintro ⟨d, x, made, rfl⟩
    obtain ⟨c, -, -, below, modulus, multiplier, increment, -⟩ := d.exists_of_cycle? made
    have full := (d.sound made).full
    rw [modulus] at full
    refine ⟨UInt64.lt_iff_toNat_lt.mpr ?_, UInt64.lt_iff_toNat_lt.mpr ?_,
      (isFull_iff_hullDobell hm).mpr full⟩
    · rw [pair, multiplier]
      exact Nat.mod_lt _ d.modulus_pos
    · rwa [pair, increment]
  · obtain ⟨a, c⟩ := p
    rintro ⟨ha, hc, accepted⟩
    obtain ⟨coprime, dvd⟩ := (isFull_iff_step_dvd hm).mp accepted
    obtain ⟨k, hk, multiplier⟩ := exists_steps hm ha dvd
    let d : Draws m := ⟨k, [c.toNat], 0, hk,
      List.forall_mem_singleton.mpr (UInt64.lt_iff_toNat_lt.mp hc),
      toNat_pos hm⟩
    have first : Draws.firstCoprime? m d.tries = some c.toNat :=
      Draws.firstCoprime?_cons coprime []
    refine ⟨d, ⟨m, a, c, 0⟩, ?_, rfl⟩
    rw [Draws.cycle?, first, Option.map_some, Draws.multiplier, multiplier]
    simp only [Nat.toUInt64, UInt64.ofNat_toNat]
    rfl

end

/-- The multipliers and increments that can be drawn, whatever the source gives, are those below the
modulus that the check accepts; and they are those that numbers from their ranges make. -/
theorem drawn_pairs_eq {m : UInt64} (hm : m ≠ 0) :
    Set.range (fun source => ((draw m).run source).1.pair) = acceptedPairs m ∧
      {p | ∃ (d : Draws m) (x : FullCycle), d.cycle? = some x ∧ x.pair = p} = acceptedPairs m := by
  refine ⟨?_, Set.ext fun _ => exists_draws_iff hm⟩
  ext p
  rw [← exists_draws_iff hm]
  constructor
  · rintro ⟨source, same⟩
    obtain ⟨d, made⟩ := (exists_source_iff hm).mp ⟨source, rfl⟩
    exact ⟨d, _, made, same⟩
  · rintro ⟨d, x, made, same⟩
    obtain ⟨source, rfl⟩ := (exists_source_iff hm).mpr ⟨d, made⟩
    exact ⟨source, same⟩

/-- Modulo 8, the multiplier 5 can be drawn with the increment 3, and the multiplier 3 cannot be
drawn. -/
theorem drawn_pairs_eq_eight : (8 : UInt64) ≠ 0 ∧
    (∃ source, ((draw 8).run source).1.pair = (5, 3)) ∧
      ¬∃ source, ((draw 8).run source).1.pair = (3, 1) := by
  have eight : (8 : UInt64) ≠ 0 := by decide
  have mem (p : UInt64 × UInt64) : (∃ source, ((draw 8).run source).1.pair = p) ↔
      p ∈ acceptedPairs 8 := Set.ext_iff.mp (drawn_pairs_eq eight).1 p
  refine ⟨eight, (mem (5, 3)).mpr ⟨by decide, by decide, by decide +kernel⟩, fun reached => ?_⟩
  obtain ⟨-, -, accepted⟩ := (mem (3, 1)).mp reached
  exact absurd accepted (by decide +kernel)

end EdgeScan.FullCycle
