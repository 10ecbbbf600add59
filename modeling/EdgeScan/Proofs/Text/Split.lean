import EdgeScan.Proofs.Text.Blank
import EdgeScan.Text.Split
import Mathlib.Data.List.Forall2

/-!
Cutting text. The pieces of a text are those between its separators, its first cut is at the first
separator, and its lines are read off one after the other. Blanks at the ends of a text that are no
separators change nothing but the blanks at the ends of its pieces.
-/
namespace EdgeScan.Text

variable {sep : Char} {s t l r a b line rest : List Char} {ls : List (List Char)}

lemma pieces_cons_of_ne {c : Char} (h : c ≠ sep) (s : List Char) :
    ∃ p ps, pieces sep s = p :: ps ∧ pieces sep (c :: s) = (c :: p) :: ps := by
  obtain ⟨p, ps, first⟩ := List.exists_cons_of_ne_nil (pieces_ne_nil sep s)
  exact ⟨p, ps, first, by simp only [pieces, if_neg h, first]⟩

theorem pieces_eq_splitOn (sep : Char) (s : List Char) : pieces sep s = s.splitOn sep := by
  induction s with
  | nil => rfl
  | cons c s ih =>
    rw [List.splitOn_cons_eq_if_modifyHead, ← ih]
    by_cases h : c = sep
    · simp [pieces, h]
    · obtain ⟨p, ps, first, longer⟩ := pieces_cons_of_ne h s
      simp [longer, first, h]

/-- A separator is where two texts can be cut apart. -/
theorem pieces_append (sep : Char) (a b : List Char) :
    pieces sep (a ++ sep :: b) = pieces sep a ++ pieces sep b := by
  simp only [pieces_eq_splitOn, List.splitOn_append_cons_self]

lemma pieces_of_not_mem (h : sep ∉ s) : pieces sep s = [s] := by
  rw [pieces_eq_splitOn, List.splitOn_eq_singleton h]

lemma pieces_append_cons (h : sep ∉ a) (b : List Char) :
    pieces sep (a ++ sep :: b) = a :: pieces sep b := by
  rw [pieces_append, pieces_of_not_mem h, List.singleton_append]

/-- The first cut of a text is at the first separator. -/
theorem cutFirst?_append_cons (h : sep ∉ a) (b : List Char) :
    cutFirst? sep (a ++ sep :: b) = some (a, b) := by
  induction a with
  | nil => simp [cutFirst?]
  | cons c a ih =>
    rw [List.mem_cons, not_or] at h
    simp [cutFirst?, Ne.symm h.1, ih h.2]

lemma cutFirst?_of_not_mem (h : sep ∉ s) : cutFirst? sep s = none := by
  induction s with
  | nil => rfl
  | cons c s ih =>
    rw [List.mem_cons, not_or] at h
    simp [cutFirst?, Ne.symm h.1, ih h.2]

/-! Lines -/

/-- The lines of a text. A line ends at a line feed, or at a carriage return and a line feed; the last
one may end where the text does. -/
inductive IsLines : List Char → List (List Char) → Prop
  | nil : IsLines [] []
  | last {line : List Char} (single : '\n' ∉ line) (some : line ≠ []) : IsLines line [line]
  | feed {line rest : List Char} {ls : List (List Char)} (single : '\n' ∉ line)
      (bare : line.getLast? ≠ some '\r') (later : IsLines rest ls) :
      IsLines (line ++ '\n' :: rest) (line :: ls)
  | returnFeed {line rest : List Char} {ls : List (List Char)} (single : '\n' ∉ line)
      (later : IsLines rest ls) : IsLines (line ++ '\r' :: '\n' :: rest) (line :: ls)

lemma lines_append_cons (h : '\n' ∉ line) (rest : List Char) :
    lines (line ++ '\n' :: rest) = dropReturn line :: lines rest := by
  have some := pieces_ne_nil '\n' rest
  simp only [lines, pieces_append_cons h]
  rw [List.dropLast_cons_of_ne_nil some]
  simp [List.getLastD_eq_getLast?, List.getLast?_cons, List.getLast?_eq_getLast_of_ne_nil some]

lemma lines_of_not_mem (h : '\n' ∉ line) (some : line ≠ []) : lines line = [line] := by
  simp [lines, pieces_of_not_mem h, some]

lemma IsLines.eq_lines (h : IsLines s ls) : ls = lines s := by
  induction h with
  | nil => rfl
  | last single some => rw [lines_of_not_mem single some]
  | feed single bare _ ih => rw [lines_append_cons single, dropReturn, if_neg bare, ih]
  | @returnFeed line rest ls single _ ih =>
    have whole : '\n' ∉ line ++ ['\r'] := by simp [single]
    rw [List.append_cons, lines_append_cons whole, ih]
    simp [dropReturn]

theorem exists_isLines (s : List Char) : ∃ ls, IsLines s ls := by
  by_cases feed : '\n' ∈ s
  · obtain ⟨line, rest, split, single⟩ := List.eq_append_cons_of_mem feed
    obtain ⟨ls, later⟩ := exists_isLines rest
    by_cases bare : line.getLast? = some '\r'
    · obtain ⟨line, rfl⟩ := List.getLast?_eq_some_iff.mp bare
      refine ⟨line :: ls, ?_⟩
      rw [split, List.append_assoc]
      exact .returnFeed (fun h => single (by simp [h])) later
    · exact ⟨line :: ls, split ▸ .feed single bare later⟩
  · by_cases some : s = []
    · exact ⟨[], some ▸ .nil⟩
    · exact ⟨[s], .last feed some⟩
termination_by s.length
decreasing_by simp [split]; omega

theorem isLines_iff : IsLines s ls ↔ ls = lines s := by
  refine ⟨IsLines.eq_lines, ?_⟩
  rintro rfl
  obtain ⟨ls, h⟩ := exists_isLines s
  rwa [← h.eq_lines]

/-! Blanks at the ends -/

section

variable (h : isBlank sep = false)
include h

lemma AllBlank.not_mem (hs : AllBlank s) : sep ∉ s := by
  intro mem
  rw [hs sep mem] at h
  cases h

lemma map_trim_pieces_append_left (hl : AllBlank l) (s : List Char) :
    (pieces sep (l ++ s)).map trim = (pieces sep s).map trim := by
  induction l with
  | nil => rfl
  | cons c l ih =>
    have blank : AllBlank [c] := fun d hd => hl d (by simp_all)
    have rest : AllBlank l := fun d hd => hl d (List.mem_cons_of_mem c hd)
    have other : c ≠ sep := by
      rintro rfl
      exact blank.not_mem h (List.mem_singleton_self c)
    obtain ⟨p, ps, first, longer⟩ := pieces_cons_of_ne other (l ++ s)
    have core : trim (c :: p) = trim p := trim_append_left blank p
    rw [← ih rest, List.cons_append, longer, first, List.map_cons, List.map_cons, core]

lemma forall₂_pieces_append (hr : AllBlank r) (s : List Char) :
    List.Forall₂ (fun p q => ∃ r', AllBlank r' ∧ q = p ++ r') (pieces sep s) (pieces sep (s ++ r)) := by
  induction s with
  | nil =>
    rw [List.nil_append, pieces_of_not_mem (hr.not_mem h)]
    exact .cons ⟨r, hr, rfl⟩ .nil
  | cons c s ih =>
    by_cases cut : c = sep
    · simp only [pieces, List.cons_append, if_pos cut]
      exact .cons ⟨[], .nil, rfl⟩ ih
    · obtain ⟨p, ps, first, longer⟩ := pieces_cons_of_ne cut s
      obtain ⟨q, qs, first', longer'⟩ := pieces_cons_of_ne cut (s ++ r)
      rw [first, first'] at ih
      obtain ⟨⟨r', hr', rfl⟩, others⟩ := List.forall₂_cons.mp ih
      rw [List.cons_append, longer, longer']
      exact .cons ⟨r', hr', rfl⟩ others

lemma map_trim_pieces_append_right (hr : AllBlank r) (s : List Char) :
    (pieces sep (s ++ r)).map trim = (pieces sep s).map trim := by
  have each := forall₂_pieces_append h hr s
  rw [← List.forall₂_eq_eq_eq, List.forall₂_map_left_iff, List.forall₂_map_right_iff]
  refine each.flip.imp ?_
  rintro q p ⟨r', hr', rfl⟩
  exact trim_append_right hr' p

/-- To trim the pieces of a text it makes no difference whether the text has been trimmed. -/
theorem map_trim_pieces_trim (s : List Char) :
    (pieces sep (trim s)).map trim = (pieces sep s).map trim := by
  obtain ⟨l, r, hl, hr, split⟩ := (trims_trim s).between
  conv_rhs => rw [split]
  rw [map_trim_pieces_append_right h hr, map_trim_pieces_append_left h hl]

end

end EdgeScan.Text
