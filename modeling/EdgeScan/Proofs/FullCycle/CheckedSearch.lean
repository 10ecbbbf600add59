import EdgeScan.Proofs.FullCycle.TrialDivision
import Mathlib.Data.Nat.Log

/-!
The search for prime factors one test after the other, in checked arithmetic. A sum or product that is
no word would end it without a result. That never happens: each test leaves fewer tests to come, and
the last one finds the radical.
-/
namespace EdgeScan.FullCycle

/-- Where the search for prime factors stands: the product of the factors found, what is left of the
number, the candidate, and whether the powers of the candidate are being removed. -/
structure Search where
  product : UInt64
  rest : UInt64
  candidate : UInt64
  removing : Bool

namespace Search

inductive Outcome
  | goOn (s : Search)
  | result (radical : UInt64)

def times? (a b : UInt64) : Option UInt64 :=
  if a.toNat * b.toNat < 2 ^ 64 then some (a * b) else none

def succ? (p : UInt64) : Option UInt64 :=
  if p.toNat + 1 < 2 ^ 64 then some (p + 1) else none

/-- The square of a word, or the greatest word if the square is none. -/
def square (p : UInt64) : UInt64 := (times? p p).getD 0xffffffffffffffff

/-- One test of the search. It has no outcome if a number that it needs is no word. -/
def step? (s : Search) : Option Outcome :=
  if s.removing then
    if s.rest % s.candidate = 0 then some (.goOn { s with rest := s.rest / s.candidate })
    else (succ? s.candidate).map fun p => .goOn { s with candidate := p, removing := false }
  else if square s.candidate ≤ s.rest then
    if s.rest % s.candidate = 0 then
      (times? s.product s.candidate).map fun found =>
        .goOn { s with product := found, removing := true }
    else (succ? s.candidate).map fun p => .goOn { s with candidate := p }
  else if 1 < s.rest then (times? s.product s.rest).map .result
  else some (.result s.product)

/-- Whether the search ends with a result after a number of tests. -/
inductive Ends : Search → (tests : ℕ) → (radical : UInt64) → Prop
  | last {s : Search} {r : UInt64} (test : s.step? = some (.result r)) : Ends s 1 r
  | more {s t : Search} {r : UInt64} {tests : ℕ} (test : s.step? = some (.goOn t))
      (later : Ends t tests r) : Ends s (tests + 1) r

def start (n : UInt64) : Search := ⟨1, n, 2, false⟩

/-! What a test keeps -/

variable {s : Search} {n p product : UInt64}

/-- What holds between two tests. While the powers of a candidate are removed, the search goes on with
the number that will be left of them. -/
inductive Valid : Search → Prop
  | testing {product n p : UInt64} (h : Searching product n p) : Valid ⟨product, n, p, false⟩
  | removing {product n p : UInt64} (left : n ≠ 0) (two_le : 2 ≤ p.toNat) (small : p < 0x100000000)
      (h : Searching product (removeFactor n p) (p + 1)) : Valid ⟨product, n, p, true⟩

/-- The radical that the search is going to find. -/
def radical (s : Search) : UInt64 :=
  if s.removing then
    radicalFrom s.product (removeFactor s.rest s.candidate) (s.candidate + 1)
  else radicalFrom s.product s.rest s.candidate

/-- A bound on the tests to come: two for each candidate below 2^32, one for each halving of what is
left. -/
def testsLeft (s : Search) : ℕ :=
  2 * (2 ^ 32 - s.candidate.toNat) + Nat.log 2 s.rest.toNat + if s.removing then 1 else 2

/-- What a test leads to: the radical, or a search for it with fewer tests to come. -/
inductive Follows (s : Search) : Outcome → Prop
  | goOn {t : Search} (valid : t.Valid) (same : t.radical = s.radical)
      (fewer : t.testsLeft < s.testsLeft) : Follows s (.goOn t)
  | result {r : UInt64} (same : s.radical = r) : Follows s (.result r)

lemma radical_testing : radical ⟨product, n, p, false⟩ = radicalFrom product n p := rfl

lemma radical_removing :
    radical ⟨product, n, p, true⟩ = radicalFrom product (removeFactor n p) (p + 1) := rfl

lemma times?_of_lt {a b : UInt64} (h : a.toNat * b.toNat < 2 ^ 64) : times? a b = some (a * b) :=
  if_pos h

lemma succ?_of_lt (h : p < 0x100000000) : succ? p = some (p + 1) := by
  have small := UInt64.lt_iff_toNat_lt.mp h
  simp only [UInt64.reduceToNat] at small
  exact if_pos (by omega)

lemma toNat_square (p : UInt64) : (square p).toNat = min (p.toNat * p.toNat) (2 ^ 64 - 1) := by
  rw [square, times?]
  split
  · rename_i word
    rw [Option.getD_some, UInt64.toNat_mul, Nat.mod_eq_of_lt word]
    omega
  · simp only [Option.getD_none, UInt64.reduceToNat]
    omega

lemma square_le_iff (h : Searching product n p) :
    square p ≤ n ↔ p < 0x100000000 ∧ p * p ≤ n := by
  rw [UInt64.le_iff_toNat_le, toNat_square]
  refine ⟨fun le => ?_, min_sq_le⟩
  by_contra stop
  have := h.lt_min_sq stop
  omega

lemma log_div_lt {a b : ℕ} (hb : 2 ≤ b) (ha : a ≠ 0) (h : b ∣ a) :
    Nat.log 2 (a / b) < Nat.log 2 a := by
  have le := Nat.le_of_dvd (Nat.pos_of_ne_zero ha) h
  have some : 0 < Nat.log 2 a := Nat.log_pos one_lt_two (hb.trans le)
  calc Nat.log 2 (a / b)
    _ ≤ Nat.log 2 (a / 2) := Nat.log_mono_right (Nat.div_le_div_left hb two_pos)
    _ = Nat.log 2 a - 1 := Nat.log_div_base 2 a
    _ < Nat.log 2 a := Nat.sub_one_lt some.ne'

lemma testsLeft_succ (small : p < 0x100000000) (removing : Bool) :
    testsLeft ⟨product, n, p + 1, false⟩ < testsLeft ⟨product, n, p, removing⟩ := by
  have bound := UInt64.lt_iff_toNat_lt.mp small
  simp only [UInt64.reduceToNat] at bound
  simp only [testsLeft, Searching.toNat_succ small]
  cases removing <;> simp <;> omega

lemma follows_of_removing (left : n ≠ 0) (two_le : 2 ≤ p.toNat) (small : p < 0x100000000)
    (h : Searching product (removeFactor n p) (p + 1)) :
    ∃ o, step? ⟨product, n, p, true⟩ = some o ∧ Follows ⟨product, n, p, true⟩ o := by
  by_cases dvd : n % p = 0
  · have same : removeFactor (n / p) p = removeFactor n p := by
      rw [removeFactor.eq_def n, dif_pos ⟨two_le, left, dvd⟩]
    have hdvd := mod_eq_zero_iff_dvd.mp dvd
    have fewer := log_div_lt two_le (toNat_ne_zero left) hdvd
    have left' : n / p ≠ 0 := by
      intro none
      have := Nat.div_pos (Nat.le_of_dvd (toNat_pos left) hdvd) (by omega)
      rw [← UInt64.toNat_div, none] at this
      exact absurd this (by decide)
    refine ⟨.goOn ⟨product, n / p, p, true⟩, by simp [step?, dvd], .goOn ?_ ?_ ?_⟩
    · exact .removing left' two_le small (same ▸ h)
    · rw [radical_removing, radical_removing, same]
    · simp only [testsLeft, UInt64.toNat_div]
      omega
  · have same : removeFactor n p = n := by
      rw [removeFactor.eq_def, dif_neg (fun all => dvd all.2.2)]
    rw [same] at h
    refine ⟨.goOn ⟨product, n, p + 1, false⟩, by simp [step?, dvd, succ?_of_lt small], .goOn ?_ ?_ ?_⟩
    · exact .testing h
    · rw [radical_testing, radical_removing, same]
    · exact testsLeft_succ small true

/-- A candidate that divides what is left is found and removed, any other is passed over; beyond the
square root what is left is 1 or a prime. -/
lemma follows_of_testing (h : Searching product n p) :
    ∃ o, step? ⟨product, n, p, false⟩ = some o ∧ Follows ⟨product, n, p, false⟩ o := by
  have go := square_le_iff h
  by_cases more : p < 0x100000000 ∧ p * p ≤ n
  · have small := more.1
    by_cases dvd : n % p = 0
    · obtain ⟨-, -, -, word, next⟩ := h.find small (mod_eq_zero_iff_dvd.mp dvd)
      have fits : product.toNat * p.toNat < 2 ^ 64 := word ▸ (product * p).toNat_lt
      refine ⟨.goOn ⟨product * p, n, p, true⟩,
        by simp [step?, go.mpr more, dvd, times?_of_lt fits], .goOn ?_ ?_ ?_⟩
      · exact .removing h.ne_zero h.two_le small next
      · rw [radical_removing, radical_testing, radicalFrom.eq_def product n, dif_pos more, if_pos dvd]
      · simp [testsLeft]
    · refine ⟨.goOn ⟨product, n, p + 1, false⟩,
        by simp [step?, go.mpr more, dvd, succ?_of_lt small], .goOn ?_ ?_ ?_⟩
      · exact .testing (h.pass small (mod_eq_zero_iff_dvd.not.mp dvd))
      · rw [radical_testing, radical_testing, radicalFrom.eq_def product n p, dif_pos more, if_neg dvd]
      · exact testsLeft_succ small false
  · have stop := go.not.mpr more
    by_cases large : 1 < n
    · refine ⟨.result (product * n), by simp [step?, stop, large, times?_of_lt h.bound], .result ?_⟩
      rw [radical_testing, radicalFrom, dif_neg more, if_pos large]
    · refine ⟨.result product, by simp [step?, stop, large], .result ?_⟩
      rw [radical_testing, radicalFrom, dif_neg more, if_neg large]

theorem Valid.exists_follows (h : s.Valid) : ∃ o, s.step? = some o ∧ s.Follows o := by
  cases h with
  | testing h => exact follows_of_testing h
  | removing left two_le small h => exact follows_of_removing left two_le small h

lemma testsLeft_pos (s : Search) : 0 < s.testsLeft := by
  unfold testsLeft
  split <;> omega

/-- The search ends with the radical, after no more tests than were left. -/
theorem Valid.ends (h : s.Valid) : ∃ tests ≤ s.testsLeft, s.Ends tests s.radical := by
  -- by induction on the tests left, which every test makes fewer
  induction left : s.testsLeft using Nat.strong_induction_on generalizing s with
  | h k ih =>
    subst left
    obtain ⟨o, test, follows⟩ := h.exists_follows
    cases follows with
    | goOn valid same fewer =>
      obtain ⟨tests, few, ends⟩ := ih _ fewer valid rfl
      exact ⟨tests + 1, few.trans_lt fewer, .more test (same ▸ ends)⟩
    | result same => exact ⟨1, s.testsLeft_pos, .last (same ▸ test)⟩

lemma valid_start (hn : n ≠ 0) : (start n).Valid := .testing (.start hn)

lemma testsLeft_start (n : UInt64) : (start n).testsLeft ≤ 2 ^ 33 + 61 := by
  have few : Nat.log 2 n.toNat < 64 := by
    by_cases some : n.toNat = 0
    · simp [some]
    · exact Nat.log_lt_of_lt_pow some n.toNat_lt
  simp only [testsLeft, start, UInt64.reduceToNat, Bool.false_eq_true, if_false]
  omega

end Search

/-- The search for the prime factors of a word ends after less than 2^34 tests without a number that is
no word. It finds the product of the prime factors, each taken once: a squarefree divisor of the word
that all its prime factors divide. So the double of it that makes the step of the multipliers a multiple
of 4 is a word too, and the step divides the modulus. -/
theorem search_finds_radical {n : UInt64} (hn : n ≠ 0) :
    (∃ tests ≤ 2 ^ 33 + 61, (Search.start n).Ends tests (radical n)) ∧
      (radical n).toNat = ∏ q ∈ n.toNat.primeFactors, q ∧
      ((radical n).toNat ∣ n.toNat ∧ Squarefree (radical n).toNat ∧
        ∀ q, q.Prime → q ∣ n.toNat → q ∣ (radical n).toNat) ∧
      (4 ∣ n.toNat → ¬4 ∣ (radical n).toNat → (radical n).toNat * 2 < 2 ^ 64) ∧
      (step n).toNat = (if 4 ∣ n.toNat ∧ ¬4 ∣ (radical n).toNat then (radical n).toNat * 2
        else (radical n).toNat) ∧
      (step n).toNat ∣ n.toNat := by
  have value := toNat_radical hn
  obtain ⟨tests, few, ends⟩ := (Search.valid_start hn).ends
  refine ⟨⟨tests, few.trans (Search.testsLeft_start n), ends⟩, ?_, ⟨radical_dvd hn, ?_, ?_⟩,
    radical_mul_two_lt hn, toNat_step hn, (step_spec hn).1⟩
  · rw [value, Nat.radical_eq_prod_primeFactors]
  · rw [value]
    exact UniqueFactorizationMonoid.squarefree_radical
  · exact fun q prime dvd => prime_dvd_radical hn prime dvd

/-- The radical of 360 is 30, which is not a multiple of 4; so the step is 60. -/
theorem search_finds_radical_of_360 : (360 : UInt64) ≠ 0 ∧
    (∃ tests ≤ 2 ^ 33 + 61, (Search.start 360).Ends tests 30) ∧ Squarefree 30 ∧
      (∀ q, q.Prime → q ∣ 360 → q ∣ 30) ∧ (step 360).toNat = 60 ∧ 60 ∣ 360 := by
  have some : (360 : UInt64) ≠ 0 := by decide
  have value : radical 360 = 30 := by decide +kernel
  obtain ⟨ends, -, ⟨-, squarefree, primes⟩, -, step_eq, dvd⟩ := search_finds_radical some
  rw [value] at ends squarefree primes step_eq
  have sixty : (step 360).toNat = 60 := step_eq
  exact ⟨some, ends, squarefree, primes, sixty, sixty ▸ dvd⟩

end EdgeScan.FullCycle
