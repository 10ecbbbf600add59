import EdgeScan.Icmp
import Mathlib.Data.Nat.ModEq
import Mathlib.Tactic.Lemma
import Mathlib.Algebra.Order.BigOperators.Group.List
import Mathlib.Algebra.Order.Ring.Nat

/-!
The internet checksum. The words of a packet are summed, and what the sum has above 16 bits is added
to its lower 16 bits until nothing is left there. That keeps the remainder modulo 2^16 - 1, and it
makes no sum 0 that was not. So a packet that holds its own checksum has a sum that is a multiple of
2^16 - 1 but not 0, and the checksum of it is 0.
-/
namespace EdgeScan.Icmp

variable {packet front back : List UInt8} {n result : ℕ} {sum : UInt32}

/-! The words of a packet -/

/-- The words of a packet as numbers, the upper byte first; a last odd byte is the upper half of a
word whose lower half is 0. -/
def words : List UInt8 → List ℕ
  | [] => []
  | [last] => [last.toNat * 256]
  | high :: low :: rest => (high.toNat * 256 + low.toNat) :: words rest

lemma words_append (h : front.length % 2 = 0) : words (front ++ back) = words front ++ words back := by
  fun_induction words front with
  | case1 => rfl
  | case2 last => simp at h
  | case3 high low rest ih =>
    have even : rest.length % 2 = 0 := by
      simp only [List.length_cons] at h
      omega
    simp [words, ih even]

lemma le_of_mem_words : ∀ w ∈ words packet, w ≤ 0xffff := by
  fun_induction words packet with
  | case1 => simp
  | case2 last =>
    have := last.toNat_lt
    simp only [List.forall_mem_singleton]
    omega
  | case3 high low rest ih =>
    have := high.toNat_lt
    have := low.toNat_lt
    simp only [List.forall_mem_cons]
    exact ⟨by omega, ih⟩

lemma length_words (packet : List UInt8) : (words packet).length = (packet.length + 1) / 2 := by
  fun_induction words packet with
  | case1 => rfl
  | case2 last => simp
  | case3 high low rest ih =>
    simp only [List.length_cons, ih]
    omega

theorem sum_words_lt (short : packet.length ≤ 131074) : (words packet).sum < 2 ^ 32 := by
  have count := length_words packet
  have bound := List.sum_le_card_nsmul (words packet) 0xffff le_of_mem_words
  have few : (words packet).length ≤ 65537 := by omega
  calc (words packet).sum
    _ ≤ (words packet).length * 0xffff := bound
    _ ≤ 65537 * 0xffff := Nat.mul_le_mul_right 0xffff few
    _ < 2 ^ 32 := by decide

lemma toNat_word (high low : UInt8) : (word high low).toNat = high.toNat * 256 + low.toNat := by
  have hhigh := high.toNat_lt
  have upper : (high.toUInt16 <<< 8).toNat = high.toNat <<< 8 := by
    rw [UInt16.toNat_shiftLeft, UInt8.toNat_toUInt16]
    refine Nat.mod_eq_of_lt ?_
    rw [Nat.shiftLeft_eq]
    simp only [UInt16.reduceToNat, Nat.reduceMod, Nat.reducePow]
    omega
  rw [word, UInt16.toNat_or, upper, UInt8.toNat_toUInt16,
    ← Nat.shiftLeft_add_eq_or_of_lt low.toNat_lt, Nat.shiftLeft_eq]

lemma words_bigEndian (w : UInt16) : words (bigEndian w ++ back) = w.toNat :: words back := by
  have hw := w.toNat_lt
  have upper : (w >>> 8).toUInt8.toNat = w.toNat / 256 := by
    rw [UInt16.toNat_toUInt8, UInt16.toNat_shiftRight, Nat.shiftRight_eq_div_pow]
    simp only [UInt16.reduceToNat, Nat.reduceMod, Nat.reducePow]
    omega
  simp only [bigEndian, List.cons_append, List.nil_append, words, upper, UInt16.toNat_toUInt8,
    List.cons.injEq, and_true]
  omega

/-! Summing without overflow -/

/-- The summing of a packet over natural numbers: its words are added to `sum`, which gives `total`.
Every number that is computed has at most 32 bits. -/
inductive Sums : (sum : ℕ) → List UInt8 → (total : ℕ) → Prop
  | nil {sum : ℕ} : Sums sum [] sum
  | last {sum : ℕ} {byte : UInt8} (fits : sum + byte.toNat * 256 < 2 ^ 32) :
      Sums sum [byte] (sum + byte.toNat * 256)
  | word {sum total : ℕ} {high low : UInt8} {rest : List UInt8}
      (fits : sum + (high.toNat * 256 + low.toNat) < 2 ^ 32)
      (later : Sums (sum + (high.toNat * 256 + low.toNat)) rest total) :
      Sums sum (high :: low :: rest) total

/-- The adding back of carries over natural numbers. Every number that is computed has at most 32
bits. -/
inductive Folds : (sum result : ℕ) → Prop
  | done {sum : ℕ} (small : sum < 2 ^ 16) : Folds sum sum
  | carry {sum result : ℕ} (large : 2 ^ 16 ≤ sum) (fits : sum % 2 ^ 16 + sum / 2 ^ 16 < 2 ^ 32)
      (later : Folds (sum % 2 ^ 16 + sum / 2 ^ 16) result) : Folds sum result

lemma Sums.total_eq {total : ℕ} (h : Sums n packet total) : total = n + (words packet).sum := by
  induction h with
  | nil => rfl
  | last => simp [words]
  | word _ _ ih =>
    rw [ih, words, List.sum_cons, Nat.add_assoc]

theorem sums_wordSum (h : sum.toNat + (words packet).sum < 2 ^ 32) :
    Sums sum.toNat packet (wordSum sum packet).toNat := by
  fun_induction wordSum sum packet with
  | case1 sum => exact .nil
  | case2 sum last =>
    simp only [words, List.sum_singleton] at h
    have toNat : (sum + (last.toUInt32 <<< 8)).toNat = sum.toNat + last.toNat * 256 := by
      have := last.toNat_lt
      simp only [UInt32.toNat_add, UInt32.toNat_shiftLeft, UInt8.toNat_toUInt32, Nat.shiftLeft_eq,
        UInt32.reduceToNat, Nat.reduceMod, Nat.reducePow]
      omega
    rw [toNat]
    exact .last h
  | case3 sum high low rest ih =>
    rw [words, List.sum_cons, ← Nat.add_assoc] at h
    have fits : sum.toNat + (high.toNat * 256 + low.toNat) < 2 ^ 32 :=
      (Nat.le_add_right _ _).trans_lt h
    have toNat : (sum + (word high low).toUInt32).toNat =
        sum.toNat + (high.toNat * 256 + low.toNat) := by
      rw [UInt32.toNat_add, UInt16.toNat_toUInt32, toNat_word, Nat.mod_eq_of_lt fits]
    rw [toNat] at ih
    exact .word fits (ih h)

/-- Carries are added back without overflow, whatever the sum is. -/
theorem folds_fold (sum : UInt32) : Folds sum.toNat (fold sum).toNat := by
  have high (sum : UInt32) : (sum >>> 16).toNat = sum.toNat / 2 ^ 16 := by
    rw [UInt32.toNat_shiftRight, Nat.shiftRight_eq_div_pow]
    rfl
  have low (sum : UInt32) : (sum &&& (0xffff : UInt32)).toNat = sum.toNat % 2 ^ 16 :=
    Nat.and_two_pow_sub_one_eq_mod sum.toNat 16
  fun_induction fold sum with
  | case1 sum none =>
    have quotient : sum.toNat / 2 ^ 16 = 0 := by rw [← high, none, UInt32.toNat_zero]
    exact .done (by omega)
  | case2 sum some ih =>
    have hsum := sum.toNat_lt
    have next : ((sum &&& (0xffff : UInt32)) + (sum >>> 16)).toNat =
        sum.toNat % 2 ^ 16 + sum.toNat / 2 ^ 16 := by
      rw [UInt32.toNat_add, low, high]
      exact Nat.mod_eq_of_lt (by omega)
    have quotient : sum.toNat / 2 ^ 16 ≠ 0 := by
      rw [← high]
      exact fun zero => some (UInt32.toNat_inj.mp zero)
    rw [next] at ih
    exact .carry (by omega) (by omega) ih

/-! What adding back keeps -/

lemma Folds.lt (h : Folds n result) : result < 2 ^ 16 := by
  induction h with
  | done small => exact small
  | carry _ _ _ ih => exact ih

/-- Adding back carries keeps the remainder modulo 2^16 - 1, since 2^16 leaves 1. -/
theorem Folds.modEq (h : Folds n result) : result ≡ n [MOD 0xffff] := by
  induction h with
  | done => rfl
  | @carry n result _ _ _ ih =>
    refine ih.trans ?_
    have unit : 2 ^ 16 ≡ 1 [MOD 0xffff] := rfl
    calc n % 2 ^ 16 + n / 2 ^ 16
      _ = n % 2 ^ 16 + 1 * (n / 2 ^ 16) := by rw [Nat.one_mul]
      _ ≡ n % 2 ^ 16 + 2 ^ 16 * (n / 2 ^ 16) [MOD 0xffff] := (unit.symm.mul_right _).add_left _
      _ = n := Nat.mod_add_div n (2 ^ 16)

lemma Folds.eq_zero_iff (h : Folds n result) : result = 0 ↔ n = 0 := by
  induction h with
  | done => rfl
  | carry large _ _ ih => omega

/-! The checksum -/

lemma toNat_checksum (packet : List UInt8) :
    (checksum packet).toNat = 0xffff - (fold (wordSum 0 packet)).toNat := by
  have small := (folds_fold (wordSum 0 packet)).lt
  rw [checksum, UInt16.toNat_not, UInt32.toNat_toUInt16, Nat.mod_eq_of_lt small]
  rfl

section

variable (short : packet.length ≤ 131074)
include short

lemma sums_words : Sums 0 packet (wordSum 0 packet).toNat := by
  have fits : (0 : UInt32).toNat + (words packet).sum < 2 ^ 32 := by
    simpa using sum_words_lt short
  exact sums_wordSum fits

lemma toNat_wordSum : (wordSum 0 packet).toNat = (words packet).sum := by
  simpa using (sums_words short).total_eq

lemma folds_words : Folds (words packet).sum (fold (wordSum 0 packet)).toNat := by
  rw [← toNat_wordSum short]
  exact folds_fold _

lemma checksum_of_sum_eq_zero (h : (words packet).sum = 0) : checksum packet = 0xffff := by
  apply UInt16.toNat_inj.mp
  rw [toNat_checksum, (folds_words short).eq_zero_iff.mpr h]
  rfl

lemma checksum_eq_zero (multiple : 0xffff ∣ (words packet).sum) (h : (words packet).sum ≠ 0) :
    checksum packet = 0 := by
  have folds := folds_words short
  have small := folds.lt
  have pos := folds.eq_zero_iff.not.mpr h
  have folded := (folds.modEq.dvd_iff dvd_rfl).mpr multiple
  apply UInt16.toNat_inj.mp
  rw [toNat_checksum, UInt16.toNat_zero]
  omega

lemma dvd_sum_add_checksum : 0xffff ∣ (words packet).sum + (checksum packet).toNat := by
  have folds := folds_words short
  have small := folds.lt
  rw [toNat_checksum]
  apply (folds.modEq.symm.add_right _ |>.dvd_iff dvd_rfl).mpr
  omega

end

/-- A packet that holds the checksum which it has with zeros in its place has the checksum 0. -/
theorem checksum_filled (short : (front ++ [0, 0] ++ back).length ≤ 131074)
    (even : front.length % 2 = 0) :
    checksum (front ++ bigEndian (checksum (front ++ [0, 0] ++ back)) ++ back) = 0 := by
  have blank : words (front ++ [0, 0] ++ back) = words front ++ 0 :: words back := by
    rw [List.append_assoc, words_append even]
    rfl
  have multiple := dvd_sum_add_checksum short
  have ones := checksum_of_sum_eq_zero short
  generalize checksum (front ++ [0, 0] ++ back) = c at *
  have filled : words (front ++ bigEndian c ++ back) = words front ++ c.toNat :: words back := by
    rw [List.append_assoc, words_append even, words_bigEndian]
  have sum : (words (front ++ bigEndian c ++ back)).sum =
      (words (front ++ [0, 0] ++ back)).sum + c.toNat := by
    simp only [filled, blank, List.sum_append, List.sum_cons]
    omega
  have length : (front ++ bigEndian c ++ back).length = (front ++ [0, 0] ++ back).length := by
    simp [bigEndian]
  apply checksum_eq_zero (by omega)
  · rwa [sum]
  · rw [sum]
    intro none
    -- without any ones in the words the checksum would have brought in sixteen
    rw [ones (by omega)] at none
    exact absurd none (by simp)

/-- The checksum of a packet of up to 65537 words is found without overflow. If the sum of the words is
0 it is 2^16 - 1; otherwise it is 2^16 - 1 less the number from 1 to 2^16 - 1 that is congruent to the
sum. Written over two zero bytes at an even place of the packet, it makes the checksum 0; so the
checksum of every echo request is 0. -/
theorem checksum_spec :
    (∀ packet : List UInt8, packet.length ≤ 131074 →
      let total := (words packet).sum
      (Sums 0 packet total ∧ (wordSum 0 packet).toNat = total ∧
          Folds total (fold (wordSum 0 packet)).toNat) ∧
        (total = 0 → checksum packet = 0xffff) ∧
        (total ≠ 0 → ∃ r, 1 ≤ r ∧ r ≤ 0xffff ∧ r ≡ total [MOD 0xffff] ∧
          (checksum packet).toNat = 0xffff - r) ∧
        ∀ front back, packet = front ++ [0, 0] ++ back → front.length % 2 = 0 →
          checksum (front ++ bigEndian (checksum packet) ++ back) = 0) ∧
      ∀ a ident seq, checksum (echoRequest a ident seq) = 0 := by
  constructor
  · intro packet short total
    have folds := folds_words short
    refine ⟨⟨?_, toNat_wordSum short, folds⟩, checksum_of_sum_eq_zero short, fun some => ?_, ?_⟩
    · have sums := sums_words short
      rwa [toNat_wordSum short] at sums
    · have small := folds.lt
      have pos := folds.eq_zero_iff.not.mpr some
      exact ⟨_, by omega, by omega, folds.modEq, toNat_checksum packet⟩
    · rintro front back rfl even
      exact checksum_filled short even
  · intro a ident seq
    exact checksum_filled (by simp [bigEndian]) (by simp)

/-- Seven bytes whose sum has a carry, the same bytes with their checksum in place, and four zeros. -/
theorem checksum_spec_seven_bytes :
    let packet : List UInt8 := [0x45, 0xff, 0, 0, 0xff, 0xff, 0x07]
    packet.length ≤ 131074 ∧ (words packet).sum = 0x14cfe ∧ checksum packet = 0xb300 ∧
      checksum [0x45, 0xff, 0xb3, 0x00, 0xff, 0xff, 0x07] = 0 ∧ checksum [0, 0, 0, 0] = 0xffff := by
  intro packet
  have short : packet.length ≤ 131074 := by decide
  have total : (words packet).sum = 0x14cfe := by decide
  obtain ⟨-, -, nonzero, filled⟩ := checksum_spec.1 packet short
  obtain ⟨-, zero, -, -⟩ := checksum_spec.1 [0, 0, 0, 0] (by decide)
  obtain ⟨r, lower, upper, congruent, complement⟩ := nonzero (by rw [total]; decide)
  have value : checksum packet = 0xb300 := by
    apply UInt16.toNat_inj.mp
    rw [Nat.ModEq, total] at congruent
    simp only [UInt16.reduceToNat]
    omega
  have verified := filled [0x45, 0xff] [0xff, 0xff, 0x07] rfl rfl
  rw [value] at verified
  exact ⟨short, total, value, verified, zero rfl⟩

end EdgeScan.Icmp
