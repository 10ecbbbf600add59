import EdgeScan.Proofs.Distinct
import EdgeScan.Proofs.PortList
import EdgeScan.Proofs.PortList.Grammar
import Mathlib.Data.List.TakeWhile
import Mathlib.Logic.ExistsUnique

/-!
Reading port lists. A text whose items all stand for ports is read as these ports, each where it comes
first; any other text is an error at its first item that stands for none. So the ports of a text can be
written back, over any number of lines, and read again.
-/
namespace EdgeScan.PortList

open Text

variable {s : String} {l : List (ℕ × List Char)} {rows : List (List UInt16)} {row : List UInt16}
  {c : Char} {p : UInt16} {ports : List UInt16}

/-- Whether the items of a text stand for these ports, item by item. -/
def Stand (l : List (ℕ × List Char)) (rows : List (List UInt16)) : Prop :=
  List.Forall₂ (fun item ports => Means item.2 ports) l rows

lemma stand_iff :
    Stand l rows ↔ List.Forall₂ (fun item ports => numberedPorts item = .ok ports) l rows := by
  simp only [Stand, numberedPorts_eq_ok_iff]

/-- A text is read as the ports that its items stand for. -/
theorem parse_eq_ok (hl : TextItems s.toList l) (h : Stand l rows) :
    parse s = .ok (distinct rows.flatten) := by
  rw [textItems_iff] at hl
  rw [parse, ← hl, mapM_eq_ok_of_forall₂ (stand_iff.mp h)]
  rfl

lemma line_of_numberedPorts {item : ℕ × List Char} {e : ListError}
    (h : numberedPorts item = .error e) : e.line = item.1 := by
  obtain ⟨_, -, rfl⟩ := mapError_eq_error_iff.mp h
  rfl

lemma head?_chain_failure (e : ListError) :
    ∃ text, e.failure.chain.head? = some (s!"line {e.line}: " ++ text) := by
  have starts {what text : String} (cause : String) (h : text = ": " ++ what) :
      "line " ++ toString e.line ++ text ++ cause = s!"line {e.line}: " ++ (what ++ cause) := by
    simp only [h, String.append_assoc]
    rfl
  rw [ListError.failure]
  cases e.item with
  | badPort text error =>
    exact ⟨"invalid port value: " ++ String.ofList text, congrArg some (starts _ rfl)⟩
  | badStart text error =>
    exact ⟨"invalid start in range: " ++ String.ofList text, congrArg some (starts _ rfl)⟩
  | badEnd text error =>
    exact ⟨"invalid end in range: " ++ String.ofList text, congrArg some (starts _ rfl)⟩
  | descending first last =>
    refine ⟨s!"invalid range {first.toNat}-{last.toNat} (start > end)", ?_⟩
    simp only [Failure.of, Failure.chain, List.nil_append, List.head?_cons, String.append_assoc]
    rfl

/-- A text with an item that stands for no ports is an error at the first such item. -/
theorem parse_eq_error (hl : TextItems s.toList l) (h : ¬∃ rows, Stand l rows) :
    ∃ before line item after e, l = before ++ (line, item) :: after ∧
      (∀ i ∈ before, ∃ ports, Means i.2 ports) ∧ (¬∃ ports, Means item ports) ∧
      parse s = .error e ∧ e.line = line := by
  rw [textItems_iff] at hl
  simp only [stand_iff] at h
  obtain ⟨before, ⟨line, item⟩, after, e, split, fine, bad, whole⟩ := exists_error_of_not_forall₂ h
  refine ⟨before, line, item, after, e, split, ?_, ?_, ?_, line_of_numberedPorts bad⟩
  · intro i hi
    obtain ⟨ports, read⟩ := fine i hi
    exact ⟨ports, numberedPorts_eq_ok_iff.mp read⟩
  · rintro ⟨ports, means⟩
    rw [numberedPorts_eq_ok_iff.mpr means] at bad
    cases bad
  · rw [parse, ← hl, whole]
    rfl

/-! Writing ports -/

/-- Ports as text: those of a row between commas, and the rows on lines of their own. -/
def listing (rows : List (List UInt16)) : String :=
  "\n".intercalate (rows.map fun row => ",".intercalate (row.map toString))

/-- The digits of a port. -/
def digits (p : UInt16) : List Char := (toString p.toNat).toList

/-- The text of a row of ports. -/
def rowText (row : List UInt16) : List Char := [','].intercalate (row.map digits)

lemma toList_listing (rows : List (List UInt16)) :
    (listing rows).toList = ['\n'].intercalate (rows.map rowText) := by
  have text (row : List UInt16) : (",".intercalate (row.map toString)).toList = rowText row := by
    rw [String.toList_intercalate, List.map_map]
    rfl
  rw [listing, String.toList_intercalate, List.map_map]
  exact congrArg _ (List.map_congr_left fun row _ => text row)

lemma isDigit_of_mem_digits (h : c ∈ digits p) : c.isDigit = true :=
  isDigit_of_mem_toString h

lemma isPort_digits (h : p ≠ 0) : IsPort (digits p) p := ⟨isNumeral_toString p.toNat, h⟩

lemma trims_digits (p : UInt16) : Trims (digits p) (digits p) :=
  .of_forall fun _ hc => isBlank_of_isDigit (isDigit_of_mem_digits hc)

lemma mem_rowText (h : c ∈ rowText row) : c.isDigit = true ∨ c = ',' := by
  induction row with
  | nil => simp [rowText] at h
  | cons p row ih =>
    cases row with
    | nil =>
      have digit : c ∈ digits p := by simpa [rowText] using h
      exact .inl (isDigit_of_mem_digits digit)
    | cons q row =>
      have more : rowText (p :: q :: row) = digits p ++ [','] ++ rowText (q :: row) :=
        List.intercalate_cons_cons
      rw [more, List.mem_append, List.mem_append, List.mem_singleton] at h
      rcases h with (digit | comma) | rest
      · exact .inl (isDigit_of_mem_digits digit)
      · exact .inr comma
      · exact ih rest

lemma not_mem_rowText (digit : c.isDigit = false) (comma : c ≠ ',') : c ∉ rowText row := by
  intro mem
  rcases mem_rowText mem with h | h
  · rw [digit] at h
    cases h
  · exact comma h

lemma lineItems_rowText (row : List UInt16) : LineItems (rowText row) (row.map digits) := by
  have plain : (rowText row).takeWhile (· ≠ '#') = rowText row := by
    rw [List.takeWhile_eq_self_iff]
    rintro c hc
    rw [decide_eq_true_eq]
    rintro rfl
    exact not_mem_rowText (by decide) (by decide) hc
  rw [LineItems, plain]
  by_cases none : row = []
  · subst none
    exact ⟨[[]], .cons (.of_forall (by simp)) .nil, rfl⟩
  · have cut : (rowText row).splitOn ',' = row.map digits := by
      apply List.splitOn_intercalate
      · rw [List.forall_mem_map]
        intro p _ comma
        exact absurd (isDigit_of_mem_digits comma) (by decide)
      · simpa using none
    refine ⟨row.map digits, ?_, ?_⟩
    · rw [cut, List.forall₂_same, List.forall_mem_map]
      exact fun p _ => trims_digits p
    · symm
      rw [List.filter_eq_self, List.forall_mem_map]
      exact fun p _ => decide_eq_true (toList_toString_ne_nil p.toNat)

lemma exists_textItems_listing (rows : List (List UInt16)) : ∃ ls texts,
    IsLines (['\n'].intercalate (rows.map rowText)) ls ∧ List.Forall₂ LineItems ls texts ∧
      texts.flatten = rows.flatten.map digits := by
  have noFeed (row : List UInt16) : '\n' ∉ rowText row := not_mem_rowText (by decide) (by decide)
  have noReturn (row : List UInt16) : '\r' ∉ rowText row := not_mem_rowText (by decide) (by decide)
  induction rows with
  | nil => exact ⟨[], [], .nil, .nil, rfl⟩
  | cons row rows ih =>
    have items := lineItems_rowText row
    cases rows with
    | nil =>
      rw [List.map_singleton, List.intercalate_singleton, List.flatten_singleton]
      by_cases none : rowText row = []
      · -- an empty last row makes no line
        rw [none, lineItems_iff] at items
        rw [none, items]
        exact ⟨[], [], .nil, .nil, rfl⟩
      · exact ⟨[rowText row], [row.map digits], .last (noFeed row) none, .cons items .nil, by simp⟩
    | cons row' rows =>
      obtain ⟨ls, texts, later, each, whole⟩ := ih
      have bare : (rowText row).getLast? ≠ some '\r' :=
        fun last => noReturn row (List.mem_of_getLast? last)
      refine ⟨rowText row :: ls, row.map digits :: texts, ?_, .cons items each, ?_⟩
      · rw [List.map_cons, List.map_cons, List.intercalate_cons_cons, List.append_assoc]
        exact .feed (noFeed row) bare later
      · simp only [List.flatten_cons, whole, List.map_append]

lemma map_snd_numbered (texts : List (List (List Char))) (n : ℕ) :
    ((texts.zipIdx n).flatMap fun (row, n) => row.map (n, ·)).map Prod.snd = texts.flatten := by
  induction texts generalizing n with
  | nil => rfl
  | cons row texts ih =>
    rw [List.zipIdx_cons, List.flatMap_cons, List.map_append, ih, List.flatten_cons]
    simp [Function.comp_def]

/-- Ports that are written out are read again. -/
theorem parse_listing (nonzero : ∀ p ∈ rows.flatten, p ≠ 0) :
    parse (listing rows) = .ok (distinct rows.flatten) := by
  obtain ⟨ls, texts, hls, each, whole⟩ := exists_textItems_listing rows
  rw [← toList_listing] at hls
  have stand : Stand ((texts.zipIdx 1).flatMap fun (row, n) => row.map (n, ·))
      (rows.flatten.map ([·])) := by
    rw [Stand, ← List.forall₂_map_left_iff (f := Prod.snd), map_snd_numbered, whole,
      List.forall₂_map_left_iff, List.forall₂_map_right_iff, List.forall₂_same]
    intro p hp
    exact .port (isPort_digits (nonzero p hp))
  rw [parse_eq_ok ⟨ls, texts, hls, each, rfl⟩ stand, ← List.flatMap_def, List.flatMap_singleton']

/-- Every text has one list of items. If the items stand for ports, the text is read as these ports,
each where it comes first; so the ports are all different and from 1 to 65535, and they are what is read
when they are written out, over any number of lines. Otherwise the text is an error that names the line
of the first item that stands for no ports. -/
theorem parse_spec (s : String) :
    (∃! l, TextItems s.toList l) ∧
      ∀ l, TextItems s.toList l →
        (∀ rows, Stand l rows →
          let ports := rows.flatten.eraseDups
          parse s = .ok ports ∧ ports.Nodup ∧ (∀ p ∈ ports, 1 ≤ p.toNat ∧ p.toNat ≤ 65535) ∧
            ∀ written : List (List UInt16), written.flatten = ports →
              parse (listing written) = .ok ports) ∧
        ((¬∃ rows, Stand l rows) →
          ∃ before line item after e, l = before ++ (line, item) :: after ∧
            (∀ i ∈ before, ∃ ports, Means i.2 ports) ∧ (¬∃ ports, Means item ports) ∧
            parse s = .error e ∧ e.line = line ∧
            ∃ text, e.failure.chain.head? = some (s!"line {line}: " ++ text)) := by
  refine ⟨?_, fun l hl => ⟨fun rows h => ?_, fun h => ?_⟩⟩
  · simp only [textItems_iff, existsUnique_eq]
  · have read := parse_eq_ok hl h
    have nodup := nodup_distinct rows.flatten
    rw [distinct_eq_eraseDups] at read nodup
    have nonzero := ne_zero_of_parse read
    refine ⟨read, nodup, fun p hp => ?_, fun written same => ?_⟩
    · have space := p.toNat_lt
      have pos : p.toNat ≠ 0 := fun zero => nonzero p hp (UInt16.toNat_inj.mp zero)
      omega
    · rw [← same] at nodup nonzero ⊢
      rw [parse_listing nonzero, distinct_of_nodup nodup]
  · obtain ⟨before, line, item, after, e, split, fine, bad, read, rfl⟩ := parse_eq_error hl h
    exact ⟨before, e.line, item, after, e, split, fine, bad, read, rfl, head?_chain_failure e⟩

/-- A text with a comment, a line that ends in a carriage return and a range that repeats a port; its
ports on three lines; and a text with a descending range on its third line. -/
theorem parse_spec_two_texts :
    let s := "2408, +0443 # https\r\n8000 -8002,,8001\n"
    let items := [(1, "2408".toList), (1, "+0443".toList), (2, "8000 -8002".toList), (2, "8001".toList)]
    let rows : List (List UInt16) := [[2408], [443], [8000, 8001, 8002], [8001]]
    let t := "80\n\n90-80,0"
    let bad := [(1, "80".toList), (3, "90-80".toList), (3, "0".toList)]
    TextItems s.toList items ∧ Stand items rows ∧ parse s = .ok [2408, 443, 8000, 8001, 8002] ∧
      parse (listing [[2408], [443, 8000], [8001, 8002]]) = .ok [2408, 443, 8000, 8001, 8002] ∧
      TextItems t.toList bad ∧ (¬∃ rows, Stand bad rows) ∧ ∃ e, parse t = .error e ∧ e.line = 3 := by
  intro s items rows t bad
  have hitems : TextItems s.toList items := textItems_iff.mpr (by decide)
  have stand : Stand items rows := by
    refine .cons ?_ (.cons ?_ (.cons ?_ (.cons ?_ .nil)))
    all_goals exact itemPorts_eq_ok_iff.mp (by decide)
  have hbad : TextItems t.toList bad := textItems_iff.mpr (by decide)
  have none : ¬∃ rows, Stand bad rows := by
    rintro ⟨rows, h⟩
    obtain ⟨_, _, -, others, -⟩ := List.forall₂_cons_left_iff.mp h
    obtain ⟨_, _, means, -, -⟩ := List.forall₂_cons_left_iff.mp others
    have descending : itemPorts "90-80".toList = .error (.descending 90 80) := by decide
    rw [← itemPorts_eq_ok_iff, descending] at means
    cases means
  obtain ⟨read, -, -, again⟩ := ((parse_spec s).2 items hitems).1 rows stand
  obtain ⟨before, line, item, after, e, split, -, first, error, rfl, -⟩ :=
    ((parse_spec t).2 bad hbad).2 none
  refine ⟨hitems, stand, read, again _ (by decide), hbad, none, e, error, ?_⟩
  have mem : (e.line, item) ∈ bad := by simp [split]
  simp only [bad, List.mem_cons, Prod.mk.injEq, List.not_mem_nil, or_false] at mem
  rcases mem with ⟨-, rfl⟩ | ⟨line, -⟩ | ⟨line, -⟩
  · have means : Means "80".toList [80] := itemPorts_eq_ok_iff.mp (by decide)
    exact absurd ⟨[80], means⟩ first
  · exact line
  · exact line

end EdgeScan.PortList
