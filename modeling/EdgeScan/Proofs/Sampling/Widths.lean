import EdgeScan.Proofs.Sampling.Exact

/-!
How wide segments are. All segments of a span have the same width but the last, which takes the
remainder too, and that can be many times as wide. So a span is cut evenly exactly if the remainder is
at most 1.
-/
namespace EdgeScan.Span

/-- Any two segments differ by at most one in width. -/
def IsEven (l : List Segment) : Prop := ∀ u ∈ l, ∀ v ∈ l, u.width ≤ v.width + 1

variable {size wanted count i : ℕ}

lemma width_segment (h : i + 1 < count) : (segment size count i).width = size / count := by
  simp only [segment, if_neg h.ne]
  exact Nat.add_sub_cancel_left _ _

lemma width_last_segment : (segment size (count + 1) count).width =
    size / (count + 1) + size % (count + 1) := by
  have whole := Nat.div_add_mod size (count + 1)
  simp only [segment, if_pos]
  generalize size / (count + 1) = width at *
  rw [Nat.succ_mul] at whole
  omega

theorem map_width_segments (hsize : 0 < size) (hwanted : 0 < wanted) :
    (segments size wanted).map Segment.width =
      List.replicate (min wanted size - 1) (size / min wanted size) ++
        [size / min wanted size + size % min wanted size] := by
  obtain ⟨k, hk⟩ : ∃ k, min wanted size = k + 1 := Nat.exists_eq_add_one.mpr (by omega)
  have front : (List.range k).map (Segment.width ∘ segment size (k + 1)) =
      List.replicate k (size / (k + 1)) := by
    refine List.eq_replicate_iff.mpr ⟨by rw [List.length_map, List.length_range], ?_⟩
    simp only [List.forall_mem_map, List.mem_range]
    exact fun i hi => width_segment (Nat.succ_lt_succ hi)
  rw [segments, hk, List.map_map, List.range_succ, List.map_append, front, List.map_singleton,
    Function.comp_apply, width_last_segment, Nat.add_sub_cancel]

/-- A list of equal widths with one that may be greater is even if that one is greater by at most 1, or
alone. -/
theorem isEven_iff_of_widths {l : List Segment} {n width more : ℕ}
    (widths : l.map Segment.width = List.replicate n width ++ [width + more]) :
    IsEven l ↔ n = 0 ∨ more ≤ 1 := by
  have mem (w : ℕ) : (∃ u ∈ l, u.width = w) ↔ (n ≠ 0 ∧ w = width) ∨ w = width + more := by
    rw [← List.mem_map, widths, List.mem_append, List.mem_replicate, List.mem_singleton]
  constructor
  · intro even
    by_contra uneven
    rw [not_or] at uneven
    obtain ⟨u, hu, wide⟩ := (mem (width + more)).mpr (.inr rfl)
    obtain ⟨v, hv, narrow⟩ := (mem width).mpr (.inl ⟨uneven.1, rfl⟩)
    have := even u hu v hv
    omega
  · intro small u hu v hv
    have wide := (mem u.width).mp ⟨u, hu, rfl⟩
    have narrow := (mem v.width).mp ⟨v, hv, rfl⟩
    omega

/-- The segments of a span are as many as addresses are wanted, or offsets there are. None is empty,
and they cut the offsets into consecutive runs. All have the same width but the last, which also takes
the remainder; so their widths differ by at most one exactly if the remainder is at most 1. -/
theorem widths_of_segments (hsize : 1 ≤ size) (hwanted : 1 ≤ wanted) :
    let l := segments size wanted
    let count := min wanted size
    l.length = count ∧ (∀ seg ∈ l, 0 < seg.width) ∧
      l.flatMap (fun seg => List.range' seg.start seg.width) = List.range size ∧
      l.map Segment.width =
        List.replicate (count - 1) (size / count) ++ [size / count + size % count] ∧
      (IsEven l ↔ size % count ≤ 1) := by
  intro l count
  have widths := map_width_segments hsize hwanted
  refine ⟨length_segments size wanted, fun seg hseg => (within_of_mem_segments hseg).1,
    flatMap_segments size hwanted, widths, ?_⟩
  rw [isEven_iff_of_widths widths]
  refine ⟨fun even => even.elim (fun alone => ?_) id, .inr⟩
  have one : count = 1 := by omega
  rw [one, Nat.mod_one]
  exact Nat.zero_le 1

/-- With five addresses wanted of a unit, one segment is wider than the others, by one offset. -/
theorem widths_of_segments_five :
    1 ≤ unitSize ∧ 1 ≤ 5 ∧ (segments unitSize 5).map Segment.width = [51, 51, 51, 51, 52] ∧
      IsEven (segments unitSize 5) := by
  have size : 1 ≤ unitSize := by decide
  have wanted : 1 ≤ 5 := by decide
  obtain ⟨-, -, -, widths, even⟩ := widths_of_segments size wanted
  exact ⟨size, wanted, widths, even.mpr (by decide)⟩

/-- With five addresses wanted of eight, the last segment is four times as wide as the others. -/
theorem not_isEven_segments_eight :
    1 ≤ 8 ∧ 1 ≤ 5 ∧ (segments 8 5).map Segment.width = [1, 1, 1, 1, 4] ∧
      ¬IsEven (segments 8 5) := by
  refine ⟨by decide, by decide, by decide, fun even => ?_⟩
  have := even ⟨4, 4⟩ (by decide) ⟨0, 1⟩ (by decide)
  exact absurd this (by decide)

end EdgeScan.Span
