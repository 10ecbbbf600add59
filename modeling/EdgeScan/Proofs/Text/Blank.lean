import EdgeScan.Text.Blank
import Mathlib.Data.List.TakeWhile
import Mathlib.Tactic.Lemma

/-!
Trimming. What is left of a text is the text between two blank ends, as long as it neither starts nor
ends with a blank; there is only one such text.
-/
namespace EdgeScan.Text

variable {s t l r : List Char}

/-- Whether a text has no characters but blanks. -/
def AllBlank (s : List Char) : Prop := ∀ c ∈ s, isBlank c = true

/-- Whether `t` is the text `s` without the blanks at both ends. -/
structure Trims (s t : List Char) : Prop where
  between : ∃ l r, AllBlank l ∧ AllBlank r ∧ s = l ++ t ++ r
  head : ∀ c ∈ t.head?, isBlank c = false
  last : ∀ c ∈ t.getLast?, isBlank c = false

lemma AllBlank.nil : AllBlank [] := nofun

lemma AllBlank.reverse (h : AllBlank s) : AllBlank s.reverse :=
  fun c hc => h c (List.mem_reverse.mp hc)

lemma AllBlank.dropWhile_append (h : AllBlank l) (s : List Char) :
    (l ++ s).dropWhile isBlank = s.dropWhile isBlank :=
  List.dropWhile_append_of_pos h

lemma dropWhile_eq_self {p : Char → Bool} (h : ∀ c ∈ s.head?, p c = false) : s.dropWhile p = s := by
  cases s with
  | nil => rfl
  | cons c s => simp [h c rfl]

lemma strip_between {p : Char → Bool} (hl : ∀ c ∈ l, p c = true) (hr : ∀ c ∈ r, p c = true)
    (h : ∀ c ∈ s, p c = false) : strip p (l ++ s ++ r) = s := by
  rw [strip, List.append_assoc, List.dropWhile_append_of_pos hl]
  cases s with
  | nil =>
    rw [List.nil_append, List.dropWhile_eq_nil_iff.mpr hr]
    rfl
  | cons c s =>
    have first : ∀ d ∈ (c :: s ++ r).head?, p d = false := fun d hd =>
      h d (Option.mem_some.mp hd ▸ List.mem_cons_self)
    have last : ∀ d ∈ (c :: s).reverse.head?, p d = false := fun d hd =>
      h d (List.mem_reverse.mp (List.mem_of_mem_head? hd))
    rw [dropWhile_eq_self first, List.reverse_append,
      List.dropWhile_append_of_pos fun d hd => hr d (List.mem_reverse.mp hd),
      dropWhile_eq_self last, List.reverse_reverse]

lemma trim_of_head (h : ∀ c ∈ s.head?, isBlank c = false) :
    trim s = (s.reverse.dropWhile isBlank).reverse := by
  rw [trim, strip, dropWhile_eq_self h]

lemma exists_dropWhile (s : List Char) : ∃ l, AllBlank l ∧ s = l ++ s.dropWhile isBlank ∧
    ∀ c ∈ (s.dropWhile isBlank).head?, isBlank c = false := by
  refine ⟨s.takeWhile isBlank, ?_, List.takeWhile_append_dropWhile.symm, ?_⟩
  · exact List.all_eq_true.mp List.all_takeWhile
  · intro c hc
    have := List.head?_dropWhile_not isBlank s
    rw [Option.mem_def] at hc
    rw [hc] at this
    simpa using this

lemma trim_append_left (h : AllBlank l) (s : List Char) : trim (l ++ s) = trim s := by
  rw [trim, strip, h.dropWhile_append]
  rfl

lemma trim_of_allBlank (h : AllBlank s) : trim s = [] := by
  rw [← List.append_nil s, trim_append_left h]
  rfl

lemma trim_append_right (h : AllBlank r) (s : List Char) : trim (s ++ r) = trim s := by
  obtain ⟨l, hl, split, head⟩ := exists_dropWhile s
  rw [split, List.append_assoc, trim_append_left hl, trim_append_left hl]
  cases core : s.dropWhile isBlank with
  | nil => exact trim_of_allBlank h
  | cons c t =>
    have keeps : isBlank c = false := head c (by simp [core])
    rw [trim_of_head (by simpa), trim_of_head (by simpa), List.reverse_append,
      h.reverse.dropWhile_append]

theorem trims_trim (s : List Char) : Trims s (trim s) := by
  obtain ⟨l, hl, left, head⟩ := exists_dropWhile s
  obtain ⟨r, hr, right, last⟩ := exists_dropWhile (s.dropWhile isBlank).reverse
  have core : s.dropWhile isBlank = trim s ++ r.reverse := by
    rw [trim, strip, ← List.reverse_append, ← right, List.reverse_reverse]
  refine ⟨⟨l, r.reverse, hl, hr.reverse, ?_⟩, ?_, ?_⟩
  · rw [List.append_assoc, ← core, ← left]
  · -- the first character of the rest is also the first character in front of the blanks
    intro c hc
    apply head c
    rw [core, List.head?_append, Option.mem_def.mp hc]
    rfl
  · simpa [trim, strip] using last

lemma Trims.eq_trim (h : Trims s t) : t = trim s := by
  obtain ⟨l, r, hl, hr, rfl⟩ := h.between
  have ends : ∀ c ∈ t.reverse.head?, isBlank c = false := by simpa using h.last
  rw [trim_append_right hr, trim_append_left hl, trim_of_head h.head, dropWhile_eq_self ends,
    List.reverse_reverse]

lemma Trims.of_forall (h : ∀ c ∈ s, isBlank c = false) : Trims s s where
  between := ⟨[], [], .nil, .nil, by simp⟩
  head c hc := h c (List.mem_of_mem_head? hc)
  last c hc := h c (List.mem_of_mem_getLast? hc)

lemma isBlank_of_isDigit {c : Char} (h : c.isDigit = true) : isBlank c = false := by
  have bounds := Char.isDigit_iff_toNat.mp h
  simp only [Char.reduceToNat] at bounds
  simp [isBlank]
  omega

/-- Trimming is the only way to take the blanks at both ends away. -/
theorem trims_iff : Trims s t ↔ t = trim s := by
  refine ⟨Trims.eq_trim, ?_⟩
  rintro rfl
  exact trims_trim s

end EdgeScan.Text
