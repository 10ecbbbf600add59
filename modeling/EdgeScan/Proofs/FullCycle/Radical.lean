import EdgeScan.FullCycle
import Mathlib.RingTheory.Radical.NatInt

/-!
The radical of a machine word by trial division. No product wraps around, and the result is the
radical of the number. So the step of the multipliers is divisible by all that the theorem of Hull
and Dobell asks for, and divides the modulus.
-/
namespace EdgeScan.FullCycle

variable {n p : UInt64}

lemma toNat_ne_zero (h : n ≠ 0) : n.toNat ≠ 0 := fun e => h (UInt64.toNat_inj.mp e)

lemma toNat_pos (h : n ≠ 0) : 0 < n.toNat := Nat.pos_of_ne_zero (toNat_ne_zero h)

lemma toNat_toUInt64 {x : ℕ} (h : x < n.toNat) : x.toUInt64.toNat = x :=
  Nat.mod_eq_of_lt (h.trans n.toNat_lt)

lemma mod_eq_zero_iff_dvd : n % p = 0 ↔ p.toNat ∣ n.toNat := by
  rw [Nat.dvd_iff_mod_eq_zero, ← UInt64.toNat_mod, ← UInt64.toNat_inj]
  rfl

/-- The loop computes the greatest common divisor of the numbers. -/
theorem toNat_gcd (a b : UInt64) : (gcd a b).toNat = Nat.gcd a.toNat b.toNat := by
  fun_induction gcd a b with
  | case1 a b h ih =>
    rw [ih, UInt64.toNat_mod, Nat.gcd_comm, ← Nat.gcd_rec, Nat.gcd_comm]
  | case2 a b h =>
    rw [not_not.mp h]
    exact (Nat.gcd_zero_right a.toNat).symm

lemma gcd_eq_one_iff {a b : UInt64} : gcd a b = 1 ↔ a.toNat.Coprime b.toNat := by
  rw [← UInt64.toNat_inj, toNat_gcd]
  rfl

theorem exists_removeFactor (hn : n ≠ 0) (hp : 2 ≤ p.toNat) :
    ∃ k, n.toNat = p.toNat ^ k * (removeFactor n p).toNat ∧ ¬p.toNat ∣ (removeFactor n p).toNat := by
  fun_induction removeFactor n p with
  | case1 n h ih =>
    have hdvd := mod_eq_zero_iff_dvd.mp h.2.2
    have hdiv : p.toNat * (n / p).toNat = n.toNat := by
      rw [UInt64.toNat_div, Nat.mul_div_cancel' hdvd]
    have hquot : n / p ≠ 0 := by
      intro e
      rw [e] at hdiv
      exact toNat_ne_zero hn hdiv.symm
    obtain ⟨k, heq, hrest⟩ := ih hquot
    refine ⟨k + 1, ?_, hrest⟩
    rw [← hdiv, heq, pow_succ]
    ring
  | case2 n h =>
    refine ⟨0, by simp, fun hdvd => h ⟨hp, hn, mod_eq_zero_iff_dvd.mpr hdvd⟩⟩

/-- A number is prime if it is less than the square of a bound that all its prime factors reach. -/
theorem prime_of_lt_sq {n p : ℕ} (hn : 1 < n) (least : ∀ q, q.Prime → q ∣ n → p ≤ q)
    (small : n < p * p) : n.Prime := by
  by_contra composite
  have factor := least _ (Nat.minFac_prime hn.ne') (Nat.minFac_dvd n)
  have square := Nat.minFac_sq_le_self (by omega) composite
  have := Nat.mul_le_mul factor factor
  rw [pow_two] at square
  omega

theorem prime_of_dvd {n p : ℕ} (hp : 2 ≤ p) (least : ∀ q, q.Prime → q ∣ n → p ≤ q) (hdvd : p ∣ n) :
    p.Prime := by
  have factor := least _ (Nat.minFac_prime (by omega)) ((Nat.minFac_dvd p).trans hdvd)
  exact Nat.prime_def_minFac.mpr ⟨hp, le_antisymm (Nat.minFac_le (by omega)) factor⟩

lemma radical_prime_pow_mul {p k r : ℕ} (hp : p.Prime) (hk : k ≠ 0) (hr : ¬p ∣ r) :
    UniqueFactorizationMonoid.radical (p ^ k * r) = p * UniqueFactorizationMonoid.radical r := by
  have coprime : IsRelPrime (p ^ k) r :=
    (Nat.coprime_iff_isRelPrime.mp ((Nat.Prime.coprime_iff_not_dvd hp).mpr hr)).pow_left
  rw [UniqueFactorizationMonoid.radical_mul coprime,
    UniqueFactorizationMonoid.radical_pow_of_prime hp.prime hk, normalize_eq]

lemma toNat_mul_self (h : p < 0x100000000) : (p * p).toNat = p.toNat * p.toNat := by
  have hp : p.toNat < 2 ^ 32 := UInt64.lt_iff_toNat_lt.mp h
  have square : p.toNat * p.toNat < 2 ^ 32 * 2 ^ 32 := Nat.mul_lt_mul'' hp hp
  rw [UInt64.toNat_mul]
  exact Nat.mod_eq_of_lt square

theorem lt_sq_of_stop (h : ¬(p < 0x100000000 ∧ p * p ≤ n)) : n.toNat < p.toNat * p.toNat := by
  by_cases small : p < 0x100000000
  · have stop : ¬p * p ≤ n := fun le => h ⟨small, le⟩
    rw [UInt64.le_iff_toNat_le, toNat_mul_self small] at stop
    omega
  · have large : 2 ^ 32 ≤ p.toNat := by
      rw [UInt64.lt_iff_toNat_lt] at small
      simpa using small
    calc n.toNat
      _ < 2 ^ 32 * 2 ^ 32 := n.toNat_lt
      _ ≤ p.toNat * p.toNat := Nat.mul_le_mul large large

/-- What the search for factors keeps: what is left has no factor below the candidate, and it is still
a word when multiplied by what has been found. -/
structure Searching (product n p : UInt64) : Prop where
  ne_zero : n ≠ 0
  two_le : 2 ≤ p.toNat
  least : ∀ q, q.Prime → q ∣ n.toNat → p.toNat ≤ q
  bound : product.toNat * n.toNat < 2 ^ 64

namespace Searching

variable {product : UInt64}

lemma start (hn : n ≠ 0) : Searching 1 n 2 where
  ne_zero := hn
  two_le := by decide
  least _ hq _ := hq.two_le
  bound := by simpa using n.toNat_lt

lemma toNat_succ (h : p < 0x100000000) : (p + 1).toNat = p.toNat + 1 := by
  have hp := UInt64.lt_iff_toNat_lt.mp h
  simp only [UInt64.toNat_add, UInt64.reduceToNat] at *
  omega

lemma pass (s : Searching product n p) (h : p < 0x100000000) (hdvd : ¬p.toNat ∣ n.toNat) :
    Searching product n (p + 1) where
  ne_zero := s.ne_zero
  two_le := by
    have := s.two_le
    rw [toNat_succ h]
    omega
  least q hq hqdvd := by
    have hle := s.least q hq hqdvd
    have hne : q ≠ p.toNat := by
      rintro rfl
      exact hdvd hqdvd
    rw [toNat_succ h]
    omega
  bound := s.bound

lemma of_dvd {rest : UInt64} (s : Searching product n p) (h : rest.toNat ∣ n.toNat) :
    Searching product rest p where
  ne_zero := by
    rintro rfl
    exact toNat_ne_zero s.ne_zero (Nat.zero_dvd.mp h)
  two_le := s.two_le
  least q hq hqdvd := s.least q hq (hqdvd.trans h)
  bound := (Nat.mul_le_mul_left _ (Nat.le_of_dvd (toNat_pos s.ne_zero) h)).trans_lt s.bound

/-- A candidate that divides what is left joins the product, which does not wrap around, and what is
left loses all of its powers. -/
theorem find (s : Searching product n p) (h : p < 0x100000000) (hdvd : p.toNat ∣ n.toNat) :
    ∃ k, n.toNat = p.toNat ^ (k + 1) * (removeFactor n p).toNat ∧
      ¬p.toNat ∣ (removeFactor n p).toNat ∧
      (product * p).toNat = product.toNat * p.toNat ∧
      Searching (product * p) (removeFactor n p) (p + 1) := by
  obtain ⟨k, heq, hrest⟩ := exists_removeFactor s.ne_zero s.two_le
  obtain ⟨k, rfl⟩ : ∃ i, k = i + 1 := by
    refine Nat.exists_eq_add_one_of_ne_zero ?_
    rintro rfl
    rw [pow_zero, one_mul] at heq
    exact hrest (heq ▸ hdvd)
  have left := s.of_dvd ⟨_, heq.trans (mul_comm _ _)⟩
  have hmul : p.toNat * (removeFactor n p).toNat ≤ n.toNat := by
    rw [heq]
    exact Nat.mul_le_mul_right _ (Nat.le_self_pow (Nat.succ_ne_zero k) _)
  have hbound : product.toNat * p.toNat * (removeFactor n p).toNat < 2 ^ 64 := by
    rw [mul_assoc]
    exact (Nat.mul_le_mul_left _ hmul).trans_lt s.bound
  have hproduct : (product * p).toNat = product.toNat * p.toNat := by
    rw [UInt64.toNat_mul]
    exact Nat.mod_eq_of_lt
      ((Nat.le_mul_of_pos_right _ (toNat_pos left.ne_zero)).trans_lt hbound)
  exact ⟨k, heq, hrest, hproduct, { left.pass h hrest with bound := hproduct ▸ hbound }⟩

lemma prime (s : Searching product n p) (stop : ¬(p < 0x100000000 ∧ p * p ≤ n)) (large : 1 < n) :
    n.toNat.Prime :=
  prime_of_lt_sq (UInt64.lt_iff_toNat_lt.mp large) s.least (lt_sq_of_stop stop)

lemma toNat_eq_one (s : Searching product n p) (small : ¬1 < n) : n.toNat = 1 := by
  have := toNat_ne_zero s.ne_zero
  rw [UInt64.lt_iff_toNat_lt] at small
  simp only [UInt64.reduceToNat] at small
  omega

lemma toNat_mul (s : Searching product n p) :
    (product * n).toNat = product.toNat * n.toNat := by
  rw [UInt64.toNat_mul]
  exact Nat.mod_eq_of_lt s.bound

end Searching

/-- The search multiplies what it has found by the radical of what is left. -/
theorem radicalFrom_eq {product : UInt64} (s : Searching product n p) :
    (radicalFrom product n p).toNat =
      product.toNat * UniqueFactorizationMonoid.radical n.toNat := by
  fun_induction radicalFrom product n p with
  | case1 product n p h hdvd ih =>
    have hdvd := mod_eq_zero_iff_dvd.mp hdvd
    obtain ⟨k, heq, hrest, hproduct, next⟩ := s.find h.1 hdvd
    have prime := prime_of_dvd s.two_le s.least hdvd
    rw [ih next, hproduct, heq, radical_prime_pow_mul prime (Nat.succ_ne_zero k) hrest, mul_assoc]
  | case2 product n p h hdvd ih =>
    exact ih (s.pass h.1 (mod_eq_zero_iff_dvd.not.mp hdvd))
  | case3 product n p h large =>
    rw [s.toNat_mul, UniqueFactorizationMonoid.radical_of_prime (s.prime h large).prime,
      normalize_eq]
  | case4 product n p h small =>
    rw [s.toNat_eq_one small, UniqueFactorizationMonoid.radical_one, mul_one]

theorem toNat_radical (hn : n ≠ 0) :
    (radical n).toNat = UniqueFactorizationMonoid.radical n.toNat := by
  have h := radicalFrom_eq (.start hn)
  rwa [show (1 : UInt64).toNat = 1 from rfl, one_mul] at h

lemma radical_dvd (hn : n ≠ 0) : (radical n).toNat ∣ n.toNat := by
  rw [toNat_radical hn]
  exact UniqueFactorizationMonoid.radical_dvd_self

lemma prime_dvd_radical {q : ℕ} (hn : n ≠ 0) (hq : q.Prime) (h : q ∣ n.toNat) :
    q ∣ (radical n).toNat := by
  rw [toNat_radical hn]
  exact (UniqueFactorizationMonoid.dvd_radical_iff_of_irreducible hq (toNat_ne_zero hn)).mpr h

theorem radical_dvd_iff (hn : n ≠ 0) {x : ℕ} :
    (radical n).toNat ∣ x ↔ ∀ q, q.Prime → q ∣ n.toNat → q ∣ x := by
  refine ⟨fun h q hq hqn => (prime_dvd_radical hn hq hqn).trans h, fun h => ?_⟩
  rw [toNat_radical hn, Nat.radical_eq_prod_primeFactors]
  refine Finset.prod_primes_dvd x (fun q hq => (Nat.prime_of_mem_primeFactors hq).prime) ?_
  exact fun q hq => h q (Nat.prime_of_mem_primeFactors hq) (Nat.dvd_of_mem_primeFactors hq)

/-- The double of an even number that is no multiple of 4 is the least common multiple with 4. -/
theorem mul_two_dvd {r x : ℕ} (even : 2 ∣ r) (hr : ¬4 ∣ r) (hx : r ∣ x) (four : 4 ∣ x) :
    r * 2 ∣ x := by
  obtain ⟨s, rfl⟩ := even
  have odd : ¬2 ∣ s := by
    rintro ⟨t, rfl⟩
    exact hr ⟨t, by ring⟩
  have coprime : Nat.Coprime 4 s :=
    Nat.Coprime.pow_left 2 ((Nat.Prime.coprime_iff_not_dvd Nat.prime_two).mpr odd)
  have both := coprime.mul_dvd_of_dvd_of_dvd four ((dvd_mul_left s 2).trans hx)
  rwa [show 2 * s * 2 = 4 * s by ring]

section

variable {m : UInt64} (hm : m ≠ 0)
include hm

lemma two_dvd_radical (four : 4 ∣ m.toNat) : 2 ∣ (radical m).toNat :=
  prime_dvd_radical hm Nat.prime_two ((by decide : 2 ∣ 4).trans four)

lemma radical_mul_two_lt (four : 4 ∣ m.toNat) (hr : ¬4 ∣ (radical m).toNat) :
    (radical m).toNat * 2 < 2 ^ 64 := by
  have double := mul_two_dvd (two_dvd_radical hm four) hr (radical_dvd hm) four
  exact (Nat.le_of_dvd (toNat_pos hm) double).trans_lt m.toNat_lt

theorem toNat_step : (step m).toNat =
    if 4 ∣ m.toNat ∧ ¬4 ∣ (radical m).toNat then (radical m).toNat * 2 else (radical m).toNat := by
  have h4 (n : UInt64) : n % 4 = 0 ↔ 4 ∣ n.toNat := mod_eq_zero_iff_dvd
  simp only [step, ne_eq, h4]
  split
  · rename_i double
    rw [UInt64.toNat_mul]
    exact Nat.mod_eq_of_lt (radical_mul_two_lt hm double.1 double.2)
  · rfl

theorem step_dvd_iff {x : ℕ} : (step m).toNat ∣ x ↔
    (∀ q, q.Prime → q ∣ m.toNat → q ∣ x) ∧ (4 ∣ m.toNat → 4 ∣ x) := by
  rw [← radical_dvd_iff hm, toNat_step hm]
  split
  · rename_i double
    have even := two_dvd_radical hm double.1
    refine ⟨fun h => ⟨(dvd_mul_right _ _).trans h, fun _ => ?_⟩, fun h => ?_⟩
    · exact (Nat.mul_dvd_mul even (dvd_refl 2)).trans h
    · exact mul_two_dvd even double.2 h.1 (h.2 double.1)
  · rename_i single
    refine ⟨fun h => ⟨h, fun four => ?_⟩, fun h => h.1⟩
    exact (not_not.mp fun hr => single ⟨four, hr⟩).trans h

/-- The step divides the modulus, and is a multiple of what the theorem of Hull and Dobell asks for:
of every prime factor of the modulus, and of 4 if the modulus is. -/
theorem step_spec :
    (step m).toNat ∣ m.toNat ∧ (∀ q, q.Prime → q ∣ m.toNat → q ∣ (step m).toNat) ∧
      (4 ∣ m.toNat → 4 ∣ (step m).toNat) :=
  ⟨(step_dvd_iff hm).mpr ⟨fun _ _ h => h, id⟩, (step_dvd_iff hm).mp (dvd_refl _)⟩

end

end EdgeScan.FullCycle
