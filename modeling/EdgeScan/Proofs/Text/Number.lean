import EdgeScan.Proofs.Text.Numeral
import EdgeScan.Text.Blank
import EdgeScan.Text.Number
import Mathlib.Tactic.IntervalCases

/-!
Numbers in front of a text. A number that is written in the radix of a rule, and obeys the rule, is read
back, and the text behind it is what is left, unless it starts with a digit.
-/
namespace EdgeScan.Text

variable {radix n d : ℕ} {c : Char} {s rest : List Char} {rule : NumberRule}

/-- Whether a number can end in front of a text. -/
def EndsNumber (radix : ℕ) (rest : List Char) : Prop := ∀ c ∈ rest.head?, digit? radix c = none

lemma digit?_digitChar (small : d < radix) (base : radix ≤ 16) :
    digit? radix d.digitChar = some d := by
  have below : d < 16 := small.trans_le base
  -- the sixteen digits one by one: what each of them stands for does not depend on the radix
  interval_cases d <;> exact if_pos small

lemma isSome_digit?_sixteen (h : (digit? 10 c).isSome = true) : (digit? 16 c).isSome = true := by
  by_cases digit : c.isDigit = true
  · have bounds := Char.isDigit_iff_toNat.mp digit
    have range : '0' ≤ c ∧ c ≤ '9' := by simpa [Char.isDigit, Char.le_def] using digit
    simp only [Char.reduceToNat] at bounds
    simp only [digit?, if_pos range, Char.reduceToNat]
    rw [if_pos (by omega)]
    rfl
  · rw [digit?_of_not_isDigit digit] at h
    cases h

lemma digit?_of_isBlank (h : isBlank c = true) : digit? radix c = none := by
  have bounds : ¬('0' ≤ c ∧ c ≤ '9') ∧ ¬('a' ≤ c ∧ c ≤ 'z') ∧ ¬('A' ≤ c ∧ c ≤ 'Z') := by
    have value : c.val.toNat = c.toNat := rfl
    simp only [isBlank, Bool.or_eq_true, Bool.and_eq_true, decide_eq_true_eq, beq_iff_eq] at h
    simp only [Char.le_def, UInt32.le_iff_toNat_le, Char.reduceVal, UInt32.reduceToNat]
    omega
  obtain ⟨decimal, lower, upper⟩ := bounds
  simp only [digit?, if_neg decimal, if_neg lower, if_neg upper]
  exact if_neg (lt_irrefl radix)

lemma digitsValue_append (radix value : ℕ) (s t : List Char) :
    digitsValue radix value (s ++ t) = digitsValue radix (digitsValue radix value s) t :=
  List.foldl_append

theorem digitsValue_toDigits (many : 1 < radix) (base : radix ≤ 16) (n : ℕ) :
    digitsValue radix 0 (Nat.toDigits radix n) = n := by
  induction n using Nat.strong_induction_on with
  | h n ih =>
    rw [Nat.toDigits_eq_if many]
    split
    · rename_i small
      simp [digitsValue, digit?_digitChar small base]
    · rename_i large
      have shorter : n / radix < n := Nat.div_lt_self (by omega) many
      have last : n % radix < radix := Nat.mod_lt n (by omega)
      rw [digitsValue_append, ih _ shorter]
      simp [digitsValue, digit?_digitChar last base, Nat.div_add_mod']

lemma isSome_digit?_of_mem (many : 1 < radix) (base : radix ≤ 16)
    (h : c ∈ Nat.toDigits radix n) : (digit? radix c).isSome = true := by
  induction n using Nat.strong_induction_on with
  | h n ih =>
    rw [Nat.toDigits_eq_if many] at h
    split at h
    · rename_i small
      rw [List.mem_singleton.mp h, digit?_digitChar small base]
      rfl
    · rename_i large
      rcases List.mem_append.mp h with front | last
      · exact ih _ (Nat.div_lt_self (by omega) many) front
      · rw [List.mem_singleton.mp last, digit?_digitChar (Nat.mod_lt n (by omega)) base]
        rfl

/-- Only the number 0 is written with a zero in front. -/
lemma head?_toDigits_ne_zero (many : 1 < radix) (some : n ≠ 0) :
    (Nat.toDigits radix n).head? ≠ Option.some '0' := by
  induction n using Nat.strong_induction_on with
  | h n ih =>
    rw [Nat.toDigits_eq_if many]
    split
    · simpa [Nat.digitChar_eq_zero] using some
    · rename_i large
      have left : n / radix ≠ 0 := Nat.div_ne_zero_iff.mpr ⟨by omega, by omega⟩
      rw [List.head?_append_of_ne_nil _ Nat.toDigits_ne_nil]
      exact ih _ (Nat.div_lt_self (by omega) many) left

lemma head?_toDigits_of_length (many : 1 < radix) (long : 1 < (Nat.toDigits radix n).length) :
    (Nat.toDigits radix n).head? ≠ some '0' := by
  refine head?_toDigits_ne_zero many ?_
  rintro rfl
  simp at long

lemma takeWhile_dropWhile_digits {p : Char → Bool} (digits : ∀ c ∈ s, p c = true)
    (stop : ∀ c ∈ rest.head?, p c = false) :
    (s ++ rest).takeWhile p = s ∧ (s ++ rest).dropWhile p = rest := by
  rw [List.takeWhile_append_of_pos digits, List.dropWhile_append_of_pos digits]
  cases rest with
  | nil => simp
  | cons c rest => simp [stop c rfl]

lemma EndsNumber.nil : EndsNumber radix [] := nofun

lemma EndsNumber.cons (h : digit? radix c = none) : EndsNumber radix (c :: s) := by
  intro d first
  rwa [← Option.mem_some.mp first]

lemma EndsNumber.isSome_eq_false (h : EndsNumber radix rest) :
    ∀ c ∈ rest.head?, (digit? radix c).isSome = false := by
  intro c first
  rw [h c first]
  rfl

/-- A number that is written and obeys the rule is read back. -/
theorem NumberRule.read?_toDigits (many : 1 < rule.radix) (base : rule.radix ≤ 16)
    (few : ∀ k ∈ rule.digits, (Nat.toDigits rule.radix n).length ≤ k) (small : n < rule.limit)
    (stop : EndsNumber rule.radix rest) :
    rule.read? (Nat.toDigits rule.radix n ++ rest) = some (n, rest) := by
  obtain ⟨taken, dropped⟩ := takeWhile_dropWhile_digits
    (fun c => isSome_digit?_of_mem (n := n) many base) stop.isSome_eq_false
  have count : rule.digits.any ((Nat.toDigits rule.radix n).length > ·) = false := by
    cases bound : rule.digits with
    | none => rfl
    | some k => simpa using few k bound
  have zeros : (!rule.leadingZeros && (Nat.toDigits rule.radix n).head? == some '0' &&
      decide ((Nat.toDigits rule.radix n).length > 1)) = false := by
    by_cases long : 1 < (Nat.toDigits rule.radix n).length
    · have front := head?_toDigits_of_length many long
      simp [front]
    · simp [long]
  simp only [NumberRule.read?, taken, dropped, digitsValue_toDigits many base, count, zeros]
  simp [Nat.toDigits_ne_nil, small]

lemma NumberRule.read?_of_endsNumber (stop : EndsNumber rule.radix s) : rule.read? s = none := by
  obtain ⟨taken, -⟩ := takeWhile_dropWhile_digits (s := []) nofun stop.isSome_eq_false
  rw [List.nil_append] at taken
  simp [NumberRule.read?, taken]

lemma NumberRule.rest_of_read? (h : rule.read? s = some (n, rest)) :
    rest = s.dropWhile fun c => (digit? rule.radix c).isSome := by
  simp only [NumberRule.read?] at h
  split_ifs at h
  exact (Prod.ext_iff.mp (Option.some.inj h)).2.symm

end EdgeScan.Text
