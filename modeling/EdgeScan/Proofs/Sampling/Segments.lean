import EdgeScan.Sampling
import EdgeScan.Proofs.FullCycle.Draws

/-!
Drawing from segments. The segments of a span cover it, and a segment that has an acceptable address
always gives one, although only a few of its offsets are tried: at most the first and the last
address of a span are rejected.
-/
namespace EdgeScan.Span

/-- A span of at most one unit that lies in the address space, and in which all addresses but the
first and the last are acceptable. -/
structure Regular (s : Span) : Prop where
  size_le : s.size ≤ unitSize
  reach : ∀ x < s.size, ∃ a, s.at? x = some a
  inner : ∀ x a, 0 < x → x + 1 < s.size → s.at? x = some a → s.accepts a = true

/-- An acceptable address at an offset from `lower` to `upper`. -/
def Offers (s : Span) (lower upper : ℕ) (a : Address) : Prop :=
  ∃ x, lower ≤ x ∧ x < upper ∧ s.at? x = some a ∧ s.accepts a = true

variable {s : Span} {seg : Segment} {size wanted count i x lower upper : ℕ} {a : Address}

lemma segment_within (hi : i < count) (hcount : count ≤ size) :
    0 < (segment size count i).width ∧
      (segment size count i).start + (segment size count i).width ≤ size := by
  have hwidth : 0 < size / count := Nat.div_pos hcount (by omega)
  have hend : (i + 1) * (size / count) ≤ size :=
    (Nat.mul_le_mul_right _ hi).trans (Nat.mul_div_le size count)
  rw [Nat.succ_mul] at hend
  simp only [segment]
  split <;> omega

lemma within_of_mem_segments (h : seg ∈ segments size wanted) :
    0 < seg.width ∧ seg.start + seg.width ≤ size := by
  obtain ⟨i, hi, rfl⟩ := List.mem_map.mp h
  exact segment_within (List.mem_range.mp hi) (Nat.min_le_right _ _)

lemma range_append_range' {n m : ℕ} (h : n ≤ m) :
    List.range n ++ List.range' n (m - n) = List.range m := by
  have joined : List.range' 0 n ++ List.range' (0 + n) (m - n) = List.range' 0 (n + (m - n)) :=
    List.range'_append_1
  rwa [Nat.zero_add, Nat.add_sub_cancel' h, ← List.range_eq_range', ← List.range_eq_range']
    at joined

/-- The segments of a span are consecutive runs of its offsets that cover it. -/
theorem flatMap_segments (size : ℕ) (hwanted : 0 < wanted) :
    (segments size wanted).flatMap (fun seg => List.range' seg.start seg.width) =
      List.range size := by
  rcases Nat.eq_zero_or_pos size with rfl | pos
  · simp [segments]
  obtain ⟨k, hk⟩ : ∃ k, min wanted size = k + 1 := Nat.exists_eq_add_one.mpr (by omega)
  have fits : (k + 1) * (size / (k + 1)) ≤ size := Nat.mul_div_le _ _
  rw [segments, hk, List.flatMap_map]
  -- the last segment also takes the offsets of the remainder
  have front (j : ℕ) (hj : j ≤ k) : (List.range j).flatMap (fun i =>
      List.range' (segment size (k + 1) i).start (segment size (k + 1) i).width) =
      List.range (j * (size / (k + 1))) := by
    induction j with
    | zero => simp
    | succ j ih =>
      have notLast : j + 1 ≠ k + 1 := by omega
      rw [List.range_succ, List.flatMap_append, ih (by omega), List.flatMap_singleton]
      simp only [segment, if_neg notLast, ← Nat.succ_mul]
      exact range_append_range' (Nat.mul_le_mul_right _ (Nat.le_succ j))
  rw [List.range_succ, List.flatMap_append, front k le_rfl, List.flatMap_singleton]
  simp only [segment, if_pos]
  refine range_append_range' (le_trans (Nat.mul_le_mul_right _ (Nat.le_succ k)) fits)

theorem exists_segment (hx : x < size) (hwanted : 0 < wanted) :
    ∃ seg ∈ segments size wanted, seg.start ≤ x ∧ x < seg.start + seg.width := by
  have mem := List.mem_range.mpr hx
  rw [← flatMap_segments size hwanted] at mem
  obtain ⟨seg, hseg, inside⟩ := List.mem_flatMap.mp mem
  exact ⟨seg, hseg, List.mem_range'_1.mp inside⟩

/-- The offsets that a cycle tries in a segment. -/
def tries (seg : Segment) (c : FullCycle) : List ℕ :=
  (c.values (min maxAttempts seg.width)).map UInt64.toNat

lemma firstAccepted_eq (s : Span) (seg : Segment) (c : FullCycle) : s.firstAccepted seg c =
    (tries seg c).findSome? fun x => (s.at? (seg.start + x)).filter s.accepts := by
  rw [tries, List.findSome?_map]
  rfl

/-- A full cycle of the offsets of a segment. -/
structure Walks (c : FullCycle) (seg : Segment) : Prop where
  modulus : c.modulus.toNat = seg.width
  sound : c.Sound

namespace Walks

variable {c : FullCycle} (walks : Walks c seg)
include walks

lemma length_tries : (tries seg c).length = min maxAttempts seg.width := by
  rw [tries, walks.sound.map_toNat_values, List.length_map, List.length_range]

lemma lt_of_mem_tries (hx : x ∈ tries seg c) : x < seg.width := by
  obtain ⟨v, hv, rfl⟩ := List.mem_map.mp hx
  exact walks.modulus ▸ walks.sound.lt_of_mem_values hv

theorem nodup_tries : (tries seg c).Nodup :=
  walks.sound.nodup_values (walks.modulus ▸ Nat.min_le_right _ _)

theorem mem_tries (short : seg.width ≤ maxAttempts) (hx : x < seg.width) : x ∈ tries seg c := by
  rw [tries, Nat.min_eq_right short, ← walks.modulus]
  exact walks.sound.values_perm.symm.subset (List.mem_range.mpr (walks.modulus ▸ hx))

lemma offers_of_firstAccepted (h : s.firstAccepted seg c = some a) :
    s.Offers seg.start (seg.start + seg.width) a := by
  rw [firstAccepted_eq] at h
  obtain ⟨x, hx, found⟩ := List.exists_of_findSome?_eq_some h
  rw [Option.filter_eq_some_iff] at found
  have below := walks.lt_of_mem_tries hx
  exact ⟨seg.start + x, by omega, by omega, found⟩

end Walks

/-- Offsets of a regular span that are all rejected are no more than two. -/
theorem Regular.length_le_of_rejected (regular : s.Regular) {l : List ℕ} (nodup : l.Nodup)
    (below : ∀ x ∈ l, x < s.size) (rejected : ∀ x ∈ l, (s.at? x).filter s.accepts = none) :
    l.length ≤ 2 := by
  have ends : l ⊆ [0, s.size - 1] := by
    intro x hx
    obtain ⟨a, ha⟩ := regular.reach x (below x hx)
    have outer : ¬(0 < x ∧ x + 1 < s.size) := by
      rintro ⟨lower, upper⟩
      have accepted := regular.inner x a lower upper ha
      simpa [ha, accepted] using rejected x hx
    have hlt := below x hx
    simp only [List.mem_cons, List.not_mem_nil, or_false]
    omega
  exact (List.subperm_of_subset nodup ends).length_le

/-- A full cycle finds an acceptable address if its segment has one: it tries the whole segment, or
more offsets than are rejected. -/
theorem Regular.firstAccepted_isSome (regular : s.Regular) {c : FullCycle} (walks : Walks c seg)
    (within : seg.start + seg.width ≤ s.size)
    (h : s.Offers seg.start (seg.start + seg.width) a) : (s.firstAccepted seg c).isSome := by
  by_contra missed
  rw [Option.not_isSome_iff_eq_none, firstAccepted_eq, List.findSome?_eq_none_iff] at missed
  by_cases short : seg.width ≤ maxAttempts
  · obtain ⟨x, lower, upper, ha, accepted⟩ := h
    have tried := missed (x - seg.start) (walks.mem_tries short (by omega))
    simp [Nat.add_sub_cancel' lower, ha, accepted] at tried
  · let tried := (tries seg c).map (seg.start + ·)
    have nodup : tried.Nodup := walks.nodup_tries.map (add_right_injective seg.start)
    have two : tried.length ≤ 2 := by
      refine regular.length_le_of_rejected nodup ?_ ?_
      · intro x hx
        obtain ⟨y, hy, rfl⟩ := List.mem_map.mp hx
        have below := walks.lt_of_mem_tries hy
        omega
      · intro x hx
        obtain ⟨y, hy, rfl⟩ := List.mem_map.mp hx
        exact missed y hy
    have ten : tried.length = maxAttempts := by
      rw [List.length_map, walks.length_tries, Nat.min_eq_left (Nat.le_of_not_le short)]
    exact absurd (ten ▸ two) (by decide)

/-- What a segment gives: one of its acceptable addresses, if it has any. -/
def Picks (s : Span) (seg : Segment) (found : Option Address) : Prop :=
  (∀ a, found = some a → s.Offers seg.start (seg.start + seg.width) a) ∧
    ((∃ a, s.Offers seg.start (seg.start + seg.width) a) → found.isSome)

lemma toNat_width (small : seg.width ≤ unitSize) : seg.width.toUInt64.toNat = seg.width := by
  simp only [unitSize] at small
  exact Nat.mod_eq_of_lt (by omega)

theorem always_drawCycle (width : 0 < seg.width) (small : seg.width ≤ unitSize) :
    Draw.Always (Walks · seg) (FullCycle.draw seg.width.toUInt64) := by
  have toNat := toNat_width small
  have nonzero : seg.width.toUInt64 ≠ 0 := by
    intro zero
    rw [zero] at toNat
    exact width.ne toNat
  refine (FullCycle.always_draw nonzero).imp fun c hc => ⟨?_, hc.2⟩
  rw [hc.1, toNat]

lemma Regular.always_sampleSegment (regular : s.Regular) (width : 0 < seg.width)
    (within : seg.start + seg.width ≤ s.size) :
    Draw.Always (s.Picks seg) (s.sampleSegment seg) := by
  have small : seg.width ≤ unitSize := by
    have size := regular.size_le
    omega
  refine (always_drawCycle width small).bind fun c walks => Draw.always_pure ?_
  refine ⟨fun a => walks.offers_of_firstAccepted, fun offered => ?_⟩
  obtain ⟨a, ha⟩ := offered
  exact regular.firstAccepted_isSome walks within ha

end EdgeScan.Span
