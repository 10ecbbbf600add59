import EdgeScan.Proofs.FullCycle.Radical

/-!
Trial division in exact arithmetic. The search for prime factors computes the same as one over
natural numbers in which every product and every candidate has to be a word: nothing in it wraps
around.
-/
namespace EdgeScan.FullCycle

/-- Trial division over natural numbers. `product` is multiplied by the prime factors of `n`, all of
which are at least `p`, and gives `result`. A square that is no word counts as the greatest word, so
that the test whether to go on compares words; all other numbers that are computed are words. -/
inductive TrialDivision : (product n p result : ℕ) → Prop
  | find {product n p k rest result : ℕ} (go : min (p * p) (2 ^ 64 - 1) ≤ n)
      (split : n = p ^ (k + 1) * rest) (free : ¬p ∣ rest) (product_lt : product * p < 2 ^ 64)
      (next_lt : p + 1 < 2 ^ 64) (later : TrialDivision (product * p) rest (p + 1) result) :
      TrialDivision product n p result
  | pass {product n p result : ℕ} (go : min (p * p) (2 ^ 64 - 1) ≤ n) (free : ¬p ∣ n)
      (next_lt : p + 1 < 2 ^ 64) (later : TrialDivision product n (p + 1) result) :
      TrialDivision product n p result
  | last {product n p : ℕ} (stop : n < min (p * p) (2 ^ 64 - 1)) (large : 1 < n)
      (product_lt : product * n < 2 ^ 64) : TrialDivision product n p (product * n)
  | done {product n p : ℕ} (stop : n < min (p * p) (2 ^ 64 - 1)) (small : n ≤ 1) :
      TrialDivision product n p product

variable {product n p : UInt64}

lemma min_sq_le (go : p < 0x100000000 ∧ p * p ≤ n) :
    min (p.toNat * p.toNat) (2 ^ 64 - 1) ≤ n.toNat := by
  rw [← toNat_mul_self go.1]
  exact (Nat.min_le_left _ _).trans (UInt64.le_iff_toNat_le.mp go.2)

/-- A candidate whose square is no word ends the search too: the greatest word is left only as long as
its factor 3 has not been found. -/
theorem Searching.lt_min_sq (s : Searching product n p)
    (stop : ¬(p < 0x100000000 ∧ p * p ≤ n)) :
    n.toNat < min (p.toNat * p.toNat) (2 ^ 64 - 1) := by
  have square := lt_sq_of_stop stop
  refine Nat.lt_min.mpr ⟨square, ?_⟩
  by_contra greatest
  have all : n.toNat = 2 ^ 64 - 1 := by
    have := n.toNat_lt
    omega
  have three : p.toNat ≤ 3 := s.least 3 Nat.prime_three (all ▸ by decide)
  have := Nat.mul_le_mul three three
  omega

theorem trialDivision_radicalFrom (s : Searching product n p) :
    TrialDivision product.toNat n.toNat p.toNat (radicalFrom product n p).toNat := by
  have next_lt (p : UInt64) (h : p < 0x100000000) : p.toNat + 1 < 2 ^ 64 := by
    have := UInt64.lt_iff_toNat_lt.mp h
    simp only [UInt64.reduceToNat] at this
    omega
  fun_induction radicalFrom product n p with
  | case1 product n p h hdvd ih =>
    obtain ⟨k, split, free, hproduct, next⟩ := s.find h.1 (mod_eq_zero_iff_dvd.mp hdvd)
    have later := ih next
    rw [hproduct, Searching.toNat_succ h.1] at later
    exact .find (min_sq_le h) split free (hproduct ▸ (product * p).toNat_lt) (next_lt p h.1) later
  | case2 product n p h hdvd ih =>
    have free := mod_eq_zero_iff_dvd.not.mp hdvd
    have later := ih (s.pass h.1 free)
    rw [Searching.toNat_succ h.1] at later
    exact .pass (min_sq_le h) free (next_lt p h.1) later
  | case3 product n p h large =>
    rw [s.toNat_mul]
    exact .last (s.lt_min_sq h) (UInt64.lt_iff_toNat_lt.mp large) s.bound
  | case4 product n p h small =>
    exact .done (s.lt_min_sq h) (s.toNat_eq_one small).le

/-- The radical is found by trial division without a number that wraps around. -/
theorem trialDivision_radical (hn : n ≠ 0) : TrialDivision 1 n.toNat 2 (radical n).toNat :=
  trialDivision_radicalFrom (.start hn)

end EdgeScan.FullCycle
