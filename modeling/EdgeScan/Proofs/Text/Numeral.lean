import EdgeScan.Proofs.Traversal
import EdgeScan.Text.Numeral
import Mathlib.Algebra.Order.Ring.Nat
import Mathlib.Tactic.Tauto

/-!
Decimal numerals. A text is read as a number if it consists of digits, with or without a plus sign in
front, and the number they stand for is not above the greatest one allowed, however many digits there
are.
-/
namespace EdgeScan.Text

variable {s ds : List Char} {c : Char} {d max value n : ℕ}

/-- Whether a text is a decimal numeral, with or without a plus sign, and stands for `n`. -/
def IsNumeral (s : List Char) (n : ℕ) : Prop :=
  ∃ ds, (s = ds ∨ s = '+' :: ds) ∧ ds ≠ [] ∧ (∀ c ∈ ds, c.isDigit = true) ∧
    Nat.ofDigitChars 10 ds 0 = n

lemma digit?_of_isDigit (h : c.isDigit = true) : digit? 10 c = some (c.toNat - '0'.toNat) := by
  have bounds := Char.isDigit_iff_toNat.mp h
  have digit : '0' ≤ c ∧ c ≤ '9' := by simpa [Char.isDigit, Char.le_def] using h
  have small : c.toNat - '0'.toNat < 10 := by
    simp only [Char.reduceToNat] at bounds ⊢
    omega
  simp only [digit?, if_pos digit, if_pos small]

lemma digit?_of_not_isDigit (h : c.isDigit ≠ true) : digit? 10 c = none := by
  have other : ¬('0' ≤ c ∧ c ≤ '9') := by simpa [Char.isDigit, Char.le_def] using h
  simp only [digit?, if_neg other]
  refine if_neg ?_
  split_ifs <;> omega

lemma le_ofDigitChars (ds : List Char) (value : ℕ) : value ≤ Nat.ofDigitChars 10 ds value := by
  induction ds generalizing value with
  | nil => exact le_rfl
  | cons c ds ih =>
    rw [Nat.ofDigitChars_cons]
    have := ih (10 * value + (c.toNat - '0'.toNat))
    omega

/-- Appending digits gives the number they make, as long as it is not above the greatest one. -/
theorem appendDigits_eq_ok_iff (h : value ≤ max) : appendDigits max value ds = .ok n ↔
    (∀ c ∈ ds, c.isDigit = true) ∧ Nat.ofDigitChars 10 ds value = n ∧ n ≤ max := by
  induction ds generalizing value with
  | nil =>
    simp only [appendDigits, Except.ok.injEq, Nat.ofDigitChars_nil, List.not_mem_nil]
    constructor
    · rintro rfl
      exact ⟨nofun, rfl, h⟩
    · exact fun all => all.2.1
  | cons c ds ih =>
    rw [appendDigits, List.forall_mem_cons, Nat.ofDigitChars_cons]
    by_cases digit : c.isDigit = true
    · rw [digit?_of_isDigit digit]
      simp only [digit, true_and, Nat.mul_comm value 10]
      by_cases fits : 10 * value + (c.toNat - '0'.toNat) ≤ max
      · rw [if_pos fits, ih fits]
      · -- the digits that follow cannot make the number smaller
        have large := le_ofDigitChars ds (10 * value + (c.toNat - '0'.toNat))
        rw [if_neg fits]
        simp only [reduceCtorEq, false_iff, not_and]
        intro _ same
        omega
    · simp [digit?_of_not_isDigit digit, digit]

lemma isNumeral_plus_iff : IsNumeral ('+' :: ds) n ↔
    ds ≠ [] ∧ (∀ c ∈ ds, c.isDigit = true) ∧ Nat.ofDigitChars 10 ds 0 = n := by
  constructor
  · rintro ⟨ds', rfl | same, some, digits, value⟩
    · -- a plus sign is not a digit
      exact absurd (digits '+' List.mem_cons_self) (by decide)
    · obtain rfl := (List.cons.inj same).2
      exact ⟨some, digits, value⟩
  · rintro ⟨some, digits, value⟩
    exact ⟨ds, .inr rfl, some, digits, value⟩

lemma isNumeral_iff_of_head? (bare : s.head? ≠ some '+') : IsNumeral s n ↔
    s ≠ [] ∧ (∀ c ∈ s, c.isDigit = true) ∧ Nat.ofDigitChars 10 s 0 = n := by
  constructor
  · rintro ⟨ds, rfl | rfl, some, digits, value⟩
    · exact ⟨some, digits, value⟩
    · exact absurd rfl bare
  · rintro ⟨some, digits, value⟩
    exact ⟨s, .inl rfl, some, digits, value⟩

/-- What is read as a number is a numeral that stands for it. -/
theorem numeral_eq_ok_iff : numeral max s = .ok n ↔ IsNumeral s n ∧ n ≤ max := by
  fun_cases numeral max s with
  | case1 =>
    rw [isNumeral_iff_of_head? (by simp)]
    simp
  | case2 => simp [isNumeral_plus_iff]
  | case3 ds some =>
    have some : ds ≠ [] := fun none => some (by rw [none])
    rw [appendDigits_eq_ok_iff (Nat.zero_le max), isNumeral_plus_iff]
    tauto
  | case4 s _ _ bare =>
    have bare : s.head? ≠ Option.some '+' := by
      rintro plus
      obtain ⟨ds, rfl⟩ := List.head?_eq_some_iff.mp plus
      exact bare ds rfl
    rw [appendDigits_eq_ok_iff (Nat.zero_le max), isNumeral_iff_of_head? bare]
    tauto

/-! Numbers written out -/

lemma toList_toString (n : ℕ) : (toString n).toList = Nat.toDigits 10 n := by
  rw [Nat.toString_eq_ofList_toDigits, String.toList_ofList]

lemma toList_toString_ne_nil (n : ℕ) : (toString n).toList ≠ [] := by
  rw [toList_toString]
  exact Nat.toDigits_ne_nil

lemma isDigit_of_mem_toString (h : c ∈ (toString n).toList) : c.isDigit = true := by
  rw [toList_toString] at h
  exact Nat.isDigit_of_mem_toDigits (by decide) le_rfl h

theorem isNumeral_toString (n : ℕ) : IsNumeral (toString n).toList n := by
  refine ⟨_, .inl rfl, toList_toString_ne_nil n, fun _ => isDigit_of_mem_toString, ?_⟩
  rw [toList_toString, Nat.ofDigitChars_ten_toDigits]

end EdgeScan.Text
