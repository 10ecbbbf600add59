import EdgeScan.Proofs.FullCycle.Period
import Mathlib.Algebra.Field.ZMod

/-!
The theorem of Hull and Dobell as a criterion. A map that meets the conditions goes through all numbers
below the modulus. A map that does not, misses some remainder modulo a prime factor, or modulo 4. The
check of a multiplier and an increment asks for just these conditions, so it decides whether they make
a full cycle.
-/
namespace EdgeScan.FullCycle

open Function

/-- From 0, a map goes through all numbers below `m` and no others, and comes back after `m` steps and
not before. -/
structure IsSingleCycle (m : ℕ) (f : ℕ → ℕ) : Prop where
  stays : ∀ i, f^[i] 0 < m
  visits : ∀ y < m, ∃ i < m, f^[i] 0 = y
  returns : f^[m] 0 = 0
  not_before : ∀ i, 0 < i → i < m → f^[i] 0 ≠ 0

variable {m a c d : ℕ}

theorem HullDobell.isSingleCycle (h : HullDobell m a c) (hm : 0 < m) :
    IsSingleCycle m (affine m a c) where
  stays := iterate_affine_lt hm hm
  visits y hy := by
    have maps : Set.MapsTo (fun i => (affine m a c)^[i] 0) (Finset.range m) (Finset.range m) :=
      fun i _ => Finset.mem_coe.mpr (Finset.mem_range.mpr (iterate_affine_lt hm hm i))
    have inj := (h.injOn_iterate 0).mono fun i hi => Finset.mem_range.mp (Finset.mem_coe.mp hi)
    obtain ⟨i, hi, same⟩ := Finset.surjOn_of_injOn_of_card_le _ maps inj le_rfl
      (Finset.mem_coe.mpr (Finset.mem_range.mpr hy))
    exact ⟨i, Finset.mem_range.mp hi, same⟩
  returns := h.iterate_modulus hm
  not_before i hi him back := by
    have here : (affine m a c)^[i] 0 ≡ 0 [MOD m] := by rw [back]
    exact Nat.not_dvd_of_pos_of_lt hi him ((h.iterate_affine_iff i 0).mp here)

/-! The conditions are necessary -/

theorem iterate_move {R : Type*} [CommRing R] (a c x : R) (n : ℕ) :
    (a - 1) * (fun y => a * y + c)^[n] x + c = a ^ n * ((a - 1) * x + c) := by
  induction n with
  | zero => simp
  | succ n ih =>
    rw [iterate_succ_apply', pow_succ', mul_assoc, ← ih]
    ring

lemma cast_iterate_affine (hd : d ∣ m) (n : ℕ) : (((affine m a c)^[n] 0 : ℕ) : ZMod d) =
    (fun y : ZMod d => a * y + c)^[n] 0 := by
  induction n with
  | zero => simp
  | succ n ih =>
    rw [iterate_succ_apply', iterate_succ_apply', ← ih, affine,
      (ZMod.natCast_eq_natCast_iff _ _ d).mpr ((Nat.mod_modEq _ m).of_dvd hd)]
    push_cast
    rfl

namespace IsSingleCycle

variable (h : IsSingleCycle m (affine m a c))
include h

lemma modulus_pos : 0 < m := h.stays 0

/-- Modulo a factor of the modulus, all remainders are visited. -/
theorem exists_iterate [NeZero d] (hd : d ∣ m) (z : ZMod d) :
    ∃ i, (fun y : ZMod d => a * y + c)^[i] 0 = z := by
  obtain ⟨i, -, hi⟩ := h.visits z.val (z.val_lt.trans_le (Nat.le_of_dvd h.modulus_pos hd))
  refine ⟨i, ?_⟩
  rw [← cast_iterate_affine hd, hi, ZMod.natCast_zmod_val]

/-- With an increment that is 0 modulo a prime factor, 0 would never be left. -/
lemma increment_ne_zero {q : ℕ} [Fact q.Prime] (hq : q ∣ m) : (c : ZMod q) ≠ 0 := by
  intro zero
  obtain ⟨i, hi⟩ := h.exists_iterate hq 1
  have fixed : (fun y : ZMod q => a * y + c) 0 = 0 := by
    show (a : ZMod q) * 0 + c = 0
    rw [zero, mul_zero, add_zero]
  rw [iterate_fixed fixed] at hi
  exact zero_ne_one hi

/-- With a multiplier that is not 1 modulo a prime factor there would be a remainder that is never
left; it would be reached, and the map could not come back. -/
theorem multiplier_eq_one {q : ℕ} [Fact q.Prime] (hq : q ∣ m) : (a : ZMod q) = 1 := by
  by_contra other
  have nonzero := h.increment_ne_zero hq
  have apart : (a : ZMod q) - 1 ≠ 0 := sub_ne_zero.mpr other
  obtain ⟨i, hi⟩ := h.exists_iterate hq (-c / (a - 1))
  have rests : (a : ZMod q) ^ i * c = 0 := by
    have move := iterate_move (a : ZMod q) c 0 i
    rw [hi, mul_div_cancel₀ _ apart, neg_add_cancel, mul_zero, zero_add] at move
    exact move.symm
  have vanishes : (a : ZMod q) = 0 := eq_zero_of_pow_eq_zero ((mul_eq_zero_iff_right nonzero).mp rests)
  have back := iterate_move (a : ZMod q) c 0 m
  rw [← cast_iterate_affine hq, h.returns, vanishes, zero_pow h.modulus_pos.ne', Nat.cast_zero,
    mul_zero, zero_add, zero_mul] at back
  exact nonzero back

theorem multiplier_ne_three (four : 4 ∣ m) : (a : ZMod 4) ≠ 3 := by
  intro three
  have orbit (i : ℕ) : (fun y : ZMod 4 => a * y + c)^[i] 0 = 0 ∨
      (fun y : ZMod 4 => a * y + c)^[i] 0 = c := by
    induction i with
    | zero => exact .inl rfl
    | succ i ih =>
      rw [iterate_succ_apply']
      rcases ih with here | here <;> rw [here, three]
      · exact .inr (by rw [mul_zero, zero_add])
      · refine .inl ?_
        generalize (c : ZMod 4) = c
        revert c
        decide
  obtain ⟨i, one⟩ := h.exists_iterate four 1
  obtain ⟨j, two⟩ := h.exists_iterate four 2
  have hi := orbit i
  have hj := orbit j
  rw [one] at hi
  rw [two] at hj
  generalize (c : ZMod 4) = c at hi hj
  revert c
  decide

theorem hullDobell : HullDobell m a c where
  coprime := by
    by_contra common
    obtain ⟨q, hq, hc, hm⟩ := Nat.Prime.not_coprime_iff_dvd.mp common
    have : Fact q.Prime := ⟨hq⟩
    exact h.increment_ne_zero hm ((ZMod.natCast_eq_zero_iff c q).mpr hc)
  prime q hq hm := by
    have : Fact q.Prime := ⟨hq⟩
    rw [← ZMod.natCast_eq_natCast_iff, Nat.cast_one]
    exact h.multiplier_eq_one hm
  four hm := by
    have odd : (a : ZMod 2) = 1 := h.multiplier_eq_one ((by decide : 2 ∣ 4).trans hm)
    rw [← Nat.cast_one, ZMod.natCast_eq_natCast_iff'] at odd
    have three : a % 4 ≠ 3 := fun e =>
      h.multiplier_ne_three hm ((ZMod.natCast_eq_natCast_iff' a 3 4).mpr e)
    rw [Nat.ModEq]
    omega

end IsSingleCycle

theorem isSingleCycle_iff (hm : 0 < m) : IsSingleCycle m (affine m a c) ↔ HullDobell m a c :=
  ⟨fun h => h.hullDobell, fun h => h.isSingleCycle hm⟩

/-! The check -/

/-- The number in front of `a` modulo `m`. -/
def before (m a : ℕ) : ℕ := (a % m + m - 1) % m

lemma before_lt (hm : 0 < m) : before m a < m := Nat.mod_lt _ hm

lemma before_add_one_modEq (hm : 0 < m) : before m a + 1 ≡ a [MOD m] := by
  have whole : a % m + m - 1 + 1 = a % m + m := by omega
  calc before m a + 1
    _ ≡ a % m + m - 1 + 1 [MOD m] := (Nat.mod_modEq _ m).add_right 1
    _ = a % m + m := whole
    _ ≡ a % m [MOD m] := Nat.add_modEq_right
    _ ≡ a [MOD m] := Nat.mod_modEq a m

lemma dvd_before_iff (hm : 0 < m) (hd : d ∣ m) : d ∣ before m a ↔ a ≡ 1 [MOD d] := by
  have next := (before_add_one_modEq (a := a) hm).of_dvd hd
  rw [← Nat.modEq_zero_iff_dvd]
  refine ⟨fun zero => next.symm.trans (zero.add_right 1), fun one => ?_⟩
  exact (next.trans one).add_right_cancel' (c := 1)

/-- The check asks whether the step divides the number in front of the multiplier. -/
theorem isFull_iff_step_dvd {m a c : UInt64} (hm : m ≠ 0) : isFull m a c = true ↔
    c.toNat.Coprime m.toNat ∧ (step m).toNat ∣ before m.toNat a.toNat := by
  have pos : 0 < m.toNat := toNat_pos hm
  have h4 : m % 4 = 0 ↔ 4 ∣ m.toNat := mod_eq_zero_iff_dvd
  rw [step_dvd_iff hm, ← radical_dvd_iff hm, isFull, Nat.max_eq_left pos]
  by_cases coprime : c.toNat.Coprime m.toNat
  · rw [if_neg (not_not.mpr (gcd_eq_one_iff.mpr coprime)), and_iff_right coprime]
    simp [before, h4, Nat.dvd_iff_mod_eq_zero, imp_iff_not_or]
  · rw [if_pos (mt gcd_eq_one_iff.mp coprime)]
    simp [coprime]

theorem isFull_iff_hullDobell {m a c : UInt64} (hm : m ≠ 0) :
    isFull m a c = true ↔ HullDobell m.toNat a.toNat c.toNat := by
  have pos : 0 < m.toNat := toNat_pos hm
  rw [isFull_iff_step_dvd hm, step_dvd_iff hm]
  constructor
  · rintro ⟨coprime, prime, four⟩
    exact ⟨coprime, fun q hq hqm => (dvd_before_iff pos hqm).mp (prime q hq hqm),
      fun h => (dvd_before_iff pos h).mp (four h)⟩
  · rintro ⟨coprime, prime, four⟩
    exact ⟨coprime, fun q hq hqm => (dvd_before_iff pos hqm).mpr (prime q hq hqm),
      fun h => (dvd_before_iff pos h).mpr (four h)⟩

/-- The check accepts a multiplier and an increment, reduced or not, exactly if their map is a single
cycle of all numbers below the modulus. -/
theorem isFull_iff_isSingleCycle {m a c : UInt64} (hm : m ≠ 0) :
    isFull m a c = true ↔ IsSingleCycle m.toNat (affine m.toNat a.toNat c.toNat) := by
  have pos : 0 < m.toNat := toNat_pos hm
  rw [isFull_iff_hullDobell hm, isSingleCycle_iff pos]

/-- Modulo 12, the multiplier 25 and the increment 29 make a single cycle, and the multiplier 7, which
is 1 modulo 2 and 3 but not modulo 4, does not. -/
theorem isFull_iff_isSingleCycle_twelve :
    (12 : UInt64) ≠ 0 ∧ IsSingleCycle 12 (affine 12 25 29) ∧
      ¬IsSingleCycle 12 (affine 12 7 29) := by
  have twelve : (12 : UInt64) ≠ 0 := by decide
  refine ⟨twelve, ?_, fun single => ?_⟩
  · exact (isFull_iff_isSingleCycle (a := 25) (c := 29) twelve).mp (by decide +kernel)
  · have accepted := (isFull_iff_isSingleCycle (a := 7) (c := 29) twelve).mpr single
    exact absurd accepted (by decide +kernel)

end EdgeScan.FullCycle
