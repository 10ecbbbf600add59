import EdgeScan.Proofs.FullCycle.Radical
import Mathlib.Dynamics.PeriodicPts.Lemmas
import Mathlib.NumberTheory.Multiplicity
import Mathlib.Tactic.LinearCombination

/-!
Full cycles. Under the conditions of Hull and Dobell an affine map modulo `m` comes back to where it
started after `m` steps and not before, so that it visits all numbers below `m` on the way, and then
goes round again.
-/
namespace EdgeScan.FullCycle

open Finset Function

/-- One step of an affine map on the numbers below `m`. -/
def affine (m a c x : ℕ) : ℕ := (a * x + c) % m

/-- The conditions of Hull and Dobell. -/
structure HullDobell (m a c : ℕ) : Prop where
  coprime : c.Coprime m
  prime : ∀ q : ℕ, q.Prime → q ∣ m → a ≡ 1 [MOD q]
  four : 4 ∣ m → a ≡ 1 [MOD 4]

/-- By lifting the exponent, a geometric sum has as many factors `p` as its length. -/
theorem emultiplicity_geom_sum {p : ℕ} (hp : p.Prime) {a : ℤ} (near : (p : ℤ) ∣ a - 1)
    (near_four : p = 2 → 4 ∣ a - 1) (n : ℕ) :
    emultiplicity (p : ℤ) (∑ i ∈ range n, a ^ i) = emultiplicity (p : ℤ) n := by
  have prime := Nat.prime_iff_prime_int.mp hp
  by_cases one : a = 1
  · simp [one]
  have unit : ¬(p : ℤ) ∣ a := fun h => prime.not_dvd_one ((dvd_sub_right h).mp near)
  have lifted : emultiplicity (p : ℤ) (a ^ n - 1 ^ n) =
      emultiplicity (p : ℤ) (a - 1) + emultiplicity (p : ℤ) n := by
    rcases hp.eq_two_or_odd' with rfl | odd
    · exact Int.two_pow_sub_pow' n (near_four rfl) unit
    · rw [Int.emultiplicity_pow_sub_pow hp odd near unit, Int.natCast_emultiplicity]
  have finite : emultiplicity (p : ℤ) (a - 1) ≠ ⊤ := by
    refine finiteMultiplicity_iff_emultiplicity_ne_top.mp (Int.finiteMultiplicity_iff.mpr ?_)
    exact ⟨by simpa using hp.ne_one, sub_ne_zero.mpr one⟩
  rw [one_pow, ← geom_sum_mul, emultiplicity_mul prime, add_comm] at lifted
  exact WithTop.add_left_cancel finite lifted

lemma dvd_geom_sum_sub {q a : ℤ} (near : q ∣ a - 1) (n : ℕ) :
    q ∣ ∑ i ∈ range n, a ^ i - n := by
  have termwise : ∑ i ∈ range n, a ^ i - n = ∑ i ∈ range n, (a ^ i - 1) := by simp
  rw [termwise]
  refine dvd_sum fun i _ => near.trans ?_
  simpa using sub_dvd_pow_sub_pow a 1 i

variable {m a c : ℕ}

lemma HullDobell.dvd_sub_one (h : HullDobell m a c) {q : ℕ} (hq : q.Prime) (hm : q ∣ m) :
    (q : ℤ) ∣ a - 1 := by
  simpa using (Nat.modEq_iff_dvd.mp (h.prime q hq hm).symm)

theorem HullDobell.pow_dvd_geom_sum_iff (h : HullDobell m a c) {p k : ℕ} (hp : p.Prime)
    (hm : p ^ k ∣ m) (n : ℕ) : (p : ℤ) ^ k ∣ ∑ i ∈ range n, (a : ℤ) ^ i ↔ (p : ℤ) ^ k ∣ n := by
  rcases Nat.eq_zero_or_pos k with rfl | hk
  · simp
  have near := h.dvd_sub_one hp ((dvd_pow_self p hk.ne').trans hm)
  by_cases low : k = 1
  · subst low
    rw [pow_one]
    exact dvd_iff_dvd_of_dvd_sub (dvd_geom_sum_sub near n)
  · have near_four : p = 2 → (4 : ℤ) ∣ a - 1 := by
      rintro rfl
      have four : 4 ∣ m := (pow_dvd_pow 2 (by omega : 2 ≤ k)).trans hm
      simpa using Nat.modEq_iff_dvd.mp (h.four four).symm
    rw [pow_dvd_iff_le_emultiplicity, pow_dvd_iff_le_emultiplicity,
      emultiplicity_geom_sum hp near near_four]

/-- The modulus divides a geometric sum exactly if it divides its length. -/
theorem HullDobell.dvd_geom_sum_iff (h : HullDobell m a c) (n : ℕ) :
    (m : ℤ) ∣ ∑ i ∈ range n, (a : ℤ) ^ i ↔ m ∣ n := by
  have sum : ∑ i ∈ range n, (a : ℤ) ^ i = ((∑ i ∈ range n, a ^ i : ℕ) : ℤ) := by push_cast; rfl
  rw [sum, Int.natCast_dvd_natCast, Nat.dvd_iff_prime_pow_dvd_dvd, Nat.dvd_iff_prime_pow_dvd_dvd]
  refine forall_congr' fun p => forall_congr' fun k => forall_congr' fun hp => ?_
  refine forall_congr' fun hm => ?_
  have both := h.pow_dvd_geom_sum_iff hp hm n
  rw [sum] at both
  exact_mod_cast both

theorem iterate_affine_modEq (m a c n x : ℕ) :
    ((affine m a c)^[n] x : ℤ) ≡ a ^ n * x + c * ∑ i ∈ range n, (a : ℤ) ^ i [ZMOD m] := by
  induction n with
  | zero => simp
  | succ n ih =>
    have step : ((affine m a c)^[n + 1] x : ℤ) ≡ a * (affine m a c)^[n] x + c [ZMOD m] := by
      rw [iterate_succ_apply', affine]
      push_cast
      exact Int.mod_modEq _ _
    calc ((affine m a c)^[n + 1] x : ℤ)
      _ ≡ a * (affine m a c)^[n] x + c [ZMOD m] := step
      _ ≡ a * (a ^ n * x + c * ∑ i ∈ range n, (a : ℤ) ^ i) + c [ZMOD m] :=
        (ih.mul_left a).add_right c
      _ = a ^ (n + 1) * x + c * ∑ i ∈ range (n + 1), (a : ℤ) ^ i := by
        rw [geom_sum_succ]
        ring

theorem HullDobell.coprime_move (h : HullDobell m a c) (x : ℕ) :
    IsCoprime (m : ℤ) ((a - 1) * x + c) := by
  rw [Int.isCoprime_iff_gcd_eq_one]
  by_contra common
  obtain ⟨q, hq, hdvd⟩ := Nat.exists_prime_and_dvd common
  have hm : q ∣ m := Int.natCast_dvd_natCast.mp (Int.dvd_trans (Int.natCast_dvd_natCast.mpr hdvd)
    (Int.gcd_dvd_left _ _))
  have hmove : (q : ℤ) ∣ (a - 1) * x + c :=
    Int.dvd_trans (Int.natCast_dvd_natCast.mpr hdvd) (Int.gcd_dvd_right _ _)
  have hc : q ∣ c := Int.natCast_dvd_natCast.mp
    ((dvd_add_right ((h.dvd_sub_one hq hm).mul_right x)).mp hmove)
  exact Nat.not_coprime_of_dvd_of_dvd hq.one_lt hc hm h.coprime

/-- An affine map is back where it was exactly after a multiple of `m` steps. -/
theorem HullDobell.iterate_affine_iff (h : HullDobell m a c) (n x : ℕ) :
    (affine m a c)^[n] x ≡ x [MOD m] ↔ m ∣ n := by
  have moved : (m : ℤ) ∣ (affine m a c)^[n] x - x ↔
      (m : ℤ) ∣ (∑ i ∈ range n, (a : ℤ) ^ i) * ((a - 1) * x + c) := by
    refine dvd_iff_dvd_of_dvd_sub ?_
    have telescoped : (affine m a c)^[n] x - x -
        (∑ i ∈ range n, (a : ℤ) ^ i) * ((a - 1) * x + c) =
        (affine m a c)^[n] x - (a ^ n * x + c * ∑ i ∈ range n, (a : ℤ) ^ i) := by
      linear_combination -(x : ℤ) * geom_sum_mul (a : ℤ) n
    rw [telescoped]
    exact (iterate_affine_modEq m a c n x).symm.dvd
  have back : (affine m a c)^[n] x ≡ x [MOD m] ↔ (m : ℤ) ∣ (affine m a c)^[n] x - x := by
    rw [Nat.ModEq.comm, Nat.modEq_iff_dvd]
  rw [back, moved, ← h.dvd_geom_sum_iff]
  exact ⟨(h.coprime_move x).dvd_of_dvd_mul_right, fun hdvd => hdvd.mul_right _⟩

theorem HullDobell.injOn_iterate (h : HullDobell m a c) (x : ℕ) :
    Set.InjOn (fun i => (affine m a c)^[i] x) (Set.Iio m) := by
  have ordered {i j : ℕ} (hij : i ≤ j) (hj : j < m)
      (same : (affine m a c)^[i] x = (affine m a c)^[j] x) : i = j := by
    have back : (affine m a c)^[j - i] ((affine m a c)^[i] x) ≡ (affine m a c)^[i] x [MOD m] := by
      rw [← iterate_add_apply, Nat.sub_add_cancel hij, same]
    have zero := Nat.eq_zero_of_dvd_of_lt ((h.iterate_affine_iff _ _).mp back) (by omega)
    omega
  intro i hi j hj same
  rcases Nat.le_total i j with hij | hij
  · exact ordered hij hj same
  · exact (ordered hij hi same.symm).symm

lemma iterate_affine_lt (hm : 0 < m) {x : ℕ} (hx : x < m) (n : ℕ) :
    (affine m a c)^[n] x < m := by
  cases n with
  | zero => exact hx
  | succ n =>
    rw [iterate_succ_apply']
    exact Nat.mod_lt _ hm

theorem HullDobell.iterate_modulus (h : HullDobell m a c) {x : ℕ} (hx : x < m) :
    (affine m a c)^[m] x = x := by
  have back := (h.iterate_affine_iff m x).mpr (dvd_refl m)
  exact Nat.ModEq.eq_of_lt_of_lt back (iterate_affine_lt (Nat.zero_lt_of_lt hx) hx m) hx

theorem iterate_advance (x : FullCycle) (n : ℕ) :
    advance^[n] x = { x with state := (advance^[n] x).state } := by
  induction n with
  | zero => rfl
  | succ n ih => rw [iterate_succ_apply', ih, advance]

theorem values_add (x : FullCycle) (n k : ℕ) :
    x.values (n + k) = x.values n ++ (advance^[n] x).values k := by
  induction n generalizing x with
  | zero => rw [Nat.zero_add, values, List.nil_append, iterate_zero_apply]
  | succ n ih => rw [Nat.succ_add, values, values, ih, List.cons_append, iterate_succ_apply]

/-- A full cycle: its modulus is not 0, and its map meets the conditions. -/
structure Sound (c : FullCycle) : Prop where
  modulus_ne_zero : c.modulus ≠ 0
  full : HullDobell c.modulus.toNat c.multiplier.toNat c.increment.toNat

namespace Sound

variable {c : FullCycle}

lemma modulus_pos (h : c.Sound) : 0 < c.modulus.toNat :=
  toNat_pos h.modulus_ne_zero

lemma toNat_next (h : c.Sound) : c.next.toNat =
    affine c.modulus.toNat c.multiplier.toNat c.increment.toNat c.state.toNat :=
  toNat_toUInt64 (Nat.mod_lt _ h.modulus_pos)

lemma advance (h : c.Sound) : c.advance.Sound := ⟨h.modulus_ne_zero, h.full⟩

theorem map_toNat_values (h : c.Sound) (n : ℕ) : (c.values n).map UInt64.toNat =
    (List.range n).map fun i =>
      (affine c.modulus.toNat c.multiplier.toNat c.increment.toNat)^[i + 1] c.state.toNat := by
  induction n generalizing c with
  | zero => rfl
  | succ n ih =>
    rw [values, List.map_cons, ih h.advance, List.range_succ_eq_map, List.map_cons, List.map_map]
    refine congrArg₂ _ h.toNat_next (List.map_congr_left fun i _ => ?_)
    simp only [Function.comp_apply, Nat.succ_eq_add_one, iterate_succ_apply]
    rw [show c.advance.state = c.next from rfl, h.toNat_next]
    rfl

lemma lt_of_mem_values (h : c.Sound) {n : ℕ} {v : UInt64} (hv : v ∈ c.values n) :
    v.toNat < c.modulus.toNat := by
  have hmem := List.mem_map_of_mem (f := UInt64.toNat) hv
  rw [h.map_toNat_values] at hmem
  obtain ⟨i, -, hi⟩ := List.mem_map.mp hmem
  rw [← hi, iterate_succ_apply']
  exact Nat.mod_lt _ h.modulus_pos

theorem nodup_values (h : c.Sound) {n : ℕ} (hn : n ≤ c.modulus.toNat) :
    ((c.values n).map UInt64.toNat).Nodup := by
  rw [h.map_toNat_values]
  refine List.nodup_range.map_on fun i hi j hj same => ?_
  rw [List.mem_range] at hi hj
  simp only [iterate_succ_apply] at same
  exact h.full.injOn_iterate _ (hi.trans_le hn) (hj.trans_le hn) same

/-- In as many steps as the modulus, a cycle visits every number below it. -/
theorem values_perm (h : c.Sound) :
    ((c.values c.modulus.toNat).map UInt64.toNat).Perm (List.range c.modulus.toNat) := by
  have below : (c.values c.modulus.toNat).map UInt64.toNat ⊆ List.range c.modulus.toNat := by
    intro x hx
    obtain ⟨v, hv, rfl⟩ := List.mem_map.mp hx
    exact List.mem_range.mpr (h.lt_of_mem_values hv)
  refine (List.subperm_of_subset (h.nodup_values le_rfl) below).perm_of_length_le ?_
  rw [h.map_toNat_values, List.length_map]

theorem toNat_state_iterate (h : c.Sound) (n : ℕ) : (FullCycle.advance^[n] c).state.toNat =
    (affine c.modulus.toNat c.multiplier.toNat c.increment.toNat)^[n] c.state.toNat := by
  induction n generalizing c with
  | zero => rfl
  | succ n ih =>
    rw [iterate_succ_apply, ih h.advance, iterate_succ_apply, ← h.toNat_next]
    rfl

theorem iterate_modulus (h : c.Sound) (hs : c.state.toNat < c.modulus.toNat) :
    FullCycle.advance^[c.modulus.toNat] c = c := by
  have state : (FullCycle.advance^[c.modulus.toNat] c).state = c.state := by
    rw [← UInt64.toNat_inj, h.toNat_state_iterate, h.full.iterate_modulus hs]
  rw [iterate_advance, state]

end Sound

end EdgeScan.FullCycle
