import EdgeScan.PortList
import EdgeScan.Proofs.Text.Numeral
import EdgeScan.Proofs.Text.Split
import Mathlib.Tactic.SplitIfs

/-!
The grammar of port lists: what the items of a text are, line by line, and which ports an item stands
for. Cutting a text into items and reading an item follow it.
-/
namespace EdgeScan

open Text

variable {s item line : List Char} {p : UInt16} {ports : List UInt16}

/-- Whether a text is a decimal numeral for a port from 1 to 65535. -/
def IsPort (s : List Char) (p : UInt16) : Prop := IsNumeral s p.toNat ∧ p ≠ 0

theorem readPort_eq_ok_iff : readPort s = .ok p ↔ IsPort s p := by
  have space := p.toNat_lt
  have zero : p ≠ 0 ↔ p.toNat ≠ 0 := not_congr UInt16.toNat_inj.symm
  have fits : p.toNat ≤ 0xFFFFFFFF := by omega
  have reads : IsNumeral s p.toNat ↔ numeral 0xFFFFFFFF s = .ok p.toNat := by
    rw [numeral_eq_ok_iff, and_iff_left fits]
  rw [IsPort, reads, readPort]
  cases numeral 0xFFFFFFFF s with
  | error e => simp
  | ok n =>
    simp only [ite_error_eq_ok_iff, Except.ok.injEq]
    constructor
    · rintro ⟨inside, rfl⟩
      have toNat : n.toUInt16.toNat = n := Nat.mod_eq_of_lt (by omega)
      rw [zero, toNat]
      exact ⟨rfl, by omega⟩
    · rintro ⟨rfl, nonzero⟩
      have pos := zero.mp nonzero
      refine ⟨?_, UInt16.ofNat_toNat⟩
      omega

lemma IsPort.minus_not_mem (h : IsPort s p) : '-' ∉ s := by
  obtain ⟨⟨ds, same, -, digits, -⟩, -⟩ := h
  have minus : '-' ∉ ds := fun mem => absurd (digits '-' mem) (by decide)
  rcases same with rfl | rfl
  · exact minus
  · exact List.not_mem_cons_of_ne_of_not_mem (by decide) minus

namespace PortList

variable {first last : UInt16} {row : List (List Char)} {l : List (ℕ × List Char)}

/-- Which ports an item stands for: a port for itself, and two ports with a minus sign between them, the
first one in the item, for the ports from the first to the last. -/
inductive Means : (item : List Char) → (ports : List UInt16) → Prop
  | port {item : List Char} {p : UInt16} (h : IsPort item p) : Means item [p]
  | range {left right a b : List Char} {first last : UInt16} {ports : List UInt16}
      (cut : '-' ∉ left) (trimLeft : Trims left a) (trimRight : Trims right b)
      (hfirst : IsPort a first) (hlast : IsPort b last) (ascending : first ≤ last)
      (h : ports.map UInt16.toNat = List.range' first.toNat (last.toNat + 1 - first.toNat)) :
      Means (left ++ '-' :: right) ports

/-- The items of a line: of what stands in front of the first number sign, the pieces between commas
without the blanks around them, if anything is left of them. -/
def LineItems (line : List Char) (row : List (List Char)) : Prop :=
  ∃ trimmed, List.Forall₂ Trims ((line.takeWhile (· ≠ '#')).splitOn ',') trimmed ∧
    row = trimmed.filter (· ≠ [])

/-- The items of a text in reading order, each with the number of its line. -/
def TextItems (s : List Char) (l : List (ℕ × List Char)) : Prop :=
  ∃ ls rows, IsLines s ls ∧ List.Forall₂ LineItems ls rows ∧
    l = (rows.zipIdx 1).flatMap fun (row, n) => row.map (n, ·)

/-! Items -/

lemma map_toNat_range (first last : UInt16) : (range first last).map UInt16.toNat =
    List.range' first.toNat (last.toNat + 1 - first.toNat) := by
  have space := last.toNat_lt
  rw [range, List.range'_eq_map_range, List.map_map]
  apply List.map_congr_left
  intro i hi
  rw [List.mem_range] at hi
  exact Nat.mod_eq_of_lt (by omega)

lemma range_eq_iff : range first last = ports ↔
    ports.map UInt16.toNat = List.range' first.toNat (last.toNat + 1 - first.toNat) := by
  have injective : Function.Injective (List.map UInt16.toNat) :=
    List.map_injective_iff.mpr fun _ _ => UInt16.toNat_inj.mp
  rw [← map_toNat_range, injective.eq_iff, eq_comm]

lemma itemPorts_of_not_mem (h : '-' ∉ item) :
    itemPorts item = .ok ports ↔ ∃ p, IsPort item p ∧ [p] = ports := by
  rw [itemPorts, cutFirst?_of_not_mem h]
  simp only [← readPort_eq_ok_iff]
  cases readPort item <;> simp

lemma itemPorts_append_cons {left right : List Char} (h : '-' ∉ left) :
    itemPorts (left ++ '-' :: right) = .ok ports ↔ ∃ first last, IsPort (trim left) first ∧
      IsPort (trim right) last ∧ first ≤ last ∧ range first last = ports := by
  rw [itemPorts, cutFirst?_append_cons h]
  simp only [← readPort_eq_ok_iff]
  cases readPort (trim left) with
  | error e => simp
  | ok first =>
    cases readPort (trim right) with
    | error e => simp
    | ok last => simp [ite_error_eq_ok_iff]

/-- An item is read as the ports that it stands for. -/
theorem itemPorts_eq_ok_iff : itemPorts item = .ok ports ↔ Means item ports := by
  constructor
  · intro h
    by_cases minus : '-' ∈ item
    · obtain ⟨left, right, rfl, cut⟩ := List.eq_append_cons_of_mem minus
      obtain ⟨first, last, hfirst, hlast, ascending, whole⟩ := (itemPorts_append_cons cut).mp h
      exact .range cut (trims_trim left) (trims_trim right) hfirst hlast ascending
        (range_eq_iff.mp whole)
    · obtain ⟨p, hp, rfl⟩ := (itemPorts_of_not_mem minus).mp h
      exact .port hp
  · intro h
    cases h with
    | @port item p hp => exact (itemPorts_of_not_mem hp.minus_not_mem).mpr ⟨p, hp, rfl⟩
    | @range _ _ _ _ first last _ cut trimLeft trimRight hfirst hlast ascending whole =>
      rw [trimLeft.eq_trim] at hfirst
      rw [trimRight.eq_trim] at hlast
      exact (itemPorts_append_cons cut).mpr
        ⟨first, last, hfirst, hlast, ascending, range_eq_iff.mpr whole⟩

lemma numberedPorts_eq_ok_iff {item : ℕ × List Char} :
    numberedPorts item = .ok ports ↔ Means item.2 ports := by
  rw [numberedPorts, mapError_eq_ok_iff, itemPorts_eq_ok_iff]

/-! The items of a text -/

/-- The pieces of a line that are not empty without the blanks around them. -/
def lineItems (line : List Char) : List (List Char) :=
  (((line.takeWhile (· ≠ '#')).splitOn ',').map trim).filter (· ≠ [])

lemma lineItems_iff : LineItems line row ↔ row = lineItems line := by
  simp only [LineItems, forall₂_iff_eq_map (R := Trims) fun _ _ => trims_iff, exists_eq_left, lineItems]

/-- The blanks that are taken off a line before it is cut are taken off its pieces as well. -/
lemma map_trim_pieces_before (line : List Char) : (pieces ',' (trim (before '#' line))).map trim =
    ((line.takeWhile (· ≠ '#')).splitOn ',').map trim := by
  rw [map_trim_pieces_trim (by decide), pieces_eq_splitOn]
  rfl

lemma items_eq (s : List Char) :
    items s = ((lines s).zipIdx 1).flatMap fun (line, n) => (lineItems line).map (n, ·) := by
  rw [List.zipIdx_succ, List.flatMap_map, items]
  congr 1
  funext ⟨line, i⟩
  simp only [map_trim_pieces_before, lineItems]
  generalize ((line.takeWhile (· ≠ '#')).splitOn ',').map trim = trimmed
  rw [← List.filterMap_eq_map, List.filterMap_filter]
  apply List.filterMap_congr
  intro item _
  cases item <;> rfl

/-- A text is cut into its items. -/
theorem textItems_iff : TextItems s l ↔ l = items s := by
  have rows {ls : List (List Char)} {rows : List (List (List Char))} :
      List.Forall₂ LineItems ls rows ↔ rows = ls.map lineItems :=
    forall₂_iff_eq_map (R := LineItems) fun _ _ => lineItems_iff
  simp only [TextItems, isLines_iff, rows, exists_and_left, exists_eq_left, items_eq]
  rw [List.zipIdx_map, List.flatMap_map]
  rfl

end PortList

end EdgeScan
