import EdgeScan.Proofs.Sampling.Exact

/-!
Sampling has no blind spot. A unit index, an affine map and a place to start at can be drawn that
lead to any offset of any unit, so that every address of a block that may be used is in some sample,
and no other address is.
-/
namespace EdgeScan

namespace Span

variable {s : Span} {seg : Segment} {a : Address} {wanted : ℕ}

theorem firstAccepted_of_next {c : FullCycle} (width : 0 < seg.width)
    (found : s.at? (seg.start + c.next.toNat) = some a) (accepted : s.accepts a = true) :
    s.firstAccepted seg c = some a := by
  obtain ⟨n, hn⟩ : ∃ n, min maxAttempts seg.width = n + 1 :=
    Nat.exists_eq_add_one.mpr (Nat.lt_min.mpr ⟨by decide, width⟩)
  rw [firstAccepted, hn, FullCycle.values, List.findSome?_cons, found, Option.filter_some,
    if_pos accepted]

theorem canGive_sampleSegment (small : seg.width ≤ unitSize)
    (h : s.Offers seg.start (seg.start + seg.width) a) :
    Draw.CanGive (s.sampleSegment seg) (some a) := by
  obtain ⟨x, lower, upper, found, accepted⟩ := h
  obtain ⟨c, drawn, first⟩ := FullCycle.exists_canGive_draw (m := seg.width.toUInt64)
    (y := x - seg.start) (by rw [toNat_width small]; omega)
  have there : seg.start + c.next.toNat = x := by omega
  refine drawn.bind ?_
  rw [firstAccepted_of_next (by omega) (there ▸ found) accepted]
  exact Draw.canGive_pure _

lemma exists_canGive_sampleSegment (small : s.size ≤ unitSize)
    (hseg : seg ∈ segments s.size wanted) :
    ∃ found, Draw.CanGive (s.sampleSegment seg) found := by
  obtain ⟨width, within⟩ := within_of_mem_segments hseg
  obtain ⟨c, drawn, -⟩ := FullCycle.exists_canGive_draw (m := seg.width.toUInt64) (y := 0)
    (by rwa [toNat_width (by omega)])
  exact ⟨_, drawn.bind (Draw.canGive_pure _)⟩

lemma exists_canGive_sample (small : s.size ≤ unitSize) (wanted : ℕ) :
    ∃ l, Draw.CanGive (s.sample wanted) l := by
  obtain ⟨found, drawn⟩ := Draw.exists_canGive_mapM (l := segments s.size wanted) fun _ =>
    exists_canGive_sampleSegment small
  exact ⟨_, drawn.bind (Draw.canGive_pure _)⟩

theorem exists_mem_canGive_sample (small : s.size ≤ unitSize) (hwanted : 0 < wanted)
    (h : s.Offers 0 s.size a) : ∃ l, a ∈ l ∧ Draw.CanGive (s.sample wanted) l := by
  obtain ⟨x, -, hx, offered⟩ := h
  obtain ⟨seg, hseg, lower, upper⟩ := exists_segment hx hwanted
  have within := (within_of_mem_segments hseg).2
  have here := canGive_sampleSegment (by omega) ⟨x, lower, upper, offered⟩
  obtain ⟨found, hfound, drawn⟩ :=
    Draw.exists_mem_canGive_mapM (fun _ => exists_canGive_sampleSegment small) hseg here
  exact ⟨_, List.mem_filterMap.mpr ⟨some a, hfound, rfl⟩, drawn.bind (Draw.canGive_pure _)⟩

/-- Units that are sampled one after the other can give what one of them offers. -/
theorem exists_mem_canGive_units {α : Type} {starts : List α} {start : α} (span : α → Span)
    (small : ∀ u ∈ starts, (span u).size ≤ unitSize) (hwanted : 0 < wanted)
    (hstart : start ∈ starts) (h : (span start).Offers 0 (span start).size a) :
    ∃ l, a ∈ l ∧ Draw.CanGive (do
      let samples ← starts.mapM fun u => (span u).sample wanted
      return samples.flatten) l := by
  obtain ⟨l, hl, drawn⟩ := exists_mem_canGive_sample (small start hstart) hwanted h
  obtain ⟨samples, hsamples, all⟩ := Draw.exists_mem_canGive_mapM
    (fun u hu => exists_canGive_sample (small u hu) wanted) hstart drawn
  exact ⟨_, List.mem_flatten.mpr ⟨l, hsamples, hl⟩, all.bind (Draw.canGive_pure _)⟩

end Span

/-- Every address that may be used in a large IPv4 block is offered by the unit it lies in. -/
theorem IPv4Block.exists_unit_offers {b : IPv4Block} (large : b.length < 24) {ip : IPv4}
    (h : b.Admits ip) : ∃ start ∈ b.unitStarts.toList,
      (Span.unit (.v4 start)).Offers 0 (Span.unit (.v4 start)).size (.v4 ip) := by
  obtain ⟨inside, first, last, -⟩ := h
  obtain ⟨lower, upper⟩ := b.contains_iff.mp inside
  have space := b.network_lt
  obtain ⟨k, hk⟩ : 256 ∣ b.size := pow_dvd_pow 2 (by omega : 8 ≤ 32 - b.length)
  let i := (ip.toNat - b.network.toNat) / 256
  have start : (IPv4.ofNat (b.network.toNat + 256 * i)).toNat = b.network.toNat + 256 * i :=
    IPv4.toNat_ofNat (by omega)
  refine ⟨IPv4.ofNat (b.network.toNat + 256 * i), ?_, ip.toNat - (b.network.toNat + 256 * i),
    Nat.zero_le _, ?_, ?_, Span.accepts_unit.mpr ⟨first, last⟩⟩
  · rw [b.toList_unitStarts (by omega)]
    exact List.mem_map_of_mem (List.mem_range.mpr (by omega))
  · show ip.toNat - (b.network.toNat + 256 * i) < 256
    omega
  · have back : b.network.toNat + 256 * i + (ip.toNat - (b.network.toNat + 256 * i)) =
        ip.toNat := by
      omega
    rw [Span.unit, Span.at?_v4 (by rw [start, back]; exact ip.toNat_lt), start, back,
      IPv4.ofNat_toNat]

/-- The unit of a large IPv6 block that an address lies in can be drawn. -/
theorem IPv6Block.exists_canGive_drawUnit {b : IPv6Block} (large : b.length < 120) {ip : IPv6}
    (h : b.contains ip = true) : ∃ start, Draw.CanGive b.drawUnit start ∧
      (Span.unit (.v6 start)).Offers 0 (Span.unit (.v6 start)).size (.v6 ip) := by
  obtain ⟨lower, upper⟩ := b.contains_iff.mp h
  have space := b.network_lt
  have size := size_eq_mul large
  let i := (ip.toNat - b.network.toNat) / 256
  have hi : i < 2 ^ (120 - b.length) := by omega
  have bound : 2 ^ (120 - b.length) ≤ 256 ^ 16 :=
    Nat.pow_le_pow_right (by decide) (by omega : 120 - b.length ≤ 128)
  have start := toNat_unitStart large hi
  refine ⟨_, (Draw.canGive_below hi bound).bind (Draw.canGive_pure _), ?_⟩
  refine (Span.offers_v6 ?_).mpr ⟨ip, rfl, ?_, ?_⟩
  · simp only [Span.unitSize]
    omega
  · omega
  · simp only [Span.unitSize]
    omega

lemma IPv4Block.exists_canGive_sample {wanted : ℕ} (hwanted : 0 < wanted) {b : IPv4Block}
    {ip : IPv4} (h : b.Admits ip) :
    ∃ l, .v4 ip ∈ l ∧ Draw.CanGive ((Block.v4 b).sample wanted) l := by
  simp only [Block.sample]
  split
  · rename_i small
    exact Span.exists_mem_canGive_sample (Span.regular_ofIPv4Block small).size_le hwanted
      (Span.offers_ofIPv4Block.mpr h)
  · rename_i large
    obtain ⟨start, hstart, offered⟩ := exists_unit_offers (by omega) h
    exact Span.exists_mem_canGive_units _ (fun _ _ => le_rfl) hwanted hstart offered

lemma IPv6Block.exists_canGive_sample {wanted : ℕ} (hwanted : 0 < wanted) {b : IPv6Block}
    {ip : IPv6} (h : b.contains ip = true) :
    ∃ l, .v6 ip ∈ l ∧ Draw.CanGive ((Block.v6 b).sample wanted) l := by
  simp only [Block.sample]
  split
  · rename_i small
    obtain ⟨lower, upper⟩ := b.contains_iff.mp h
    rw [Span.ofIPv6Block_eq small]
    exact Span.exists_mem_canGive_sample (size_le_unit small) hwanted
      ((Span.offers_v6 b.network_lt).mpr ⟨ip, rfl, lower, upper⟩)
  · rename_i large
    obtain ⟨start, drawn, offered⟩ := exists_canGive_drawUnit (by omega) h
    -- the unit of the address can be drawn at every turn
    have every (u : IPv6Block) (hu : u ∈ List.replicate sampledUnits b) :
        Draw.CanGive u.drawUnit start := by
      rw [List.eq_of_mem_replicate hu]
      exact drawn
    have here : b ∈ List.replicate sampledUnits b := List.mem_replicate.mpr ⟨by decide, rfl⟩
    obtain ⟨starts, hstart, units⟩ :=
      Draw.exists_mem_canGive_mapM (fun u hu => ⟨start, every u hu⟩) here (every b here)
    obtain ⟨l, hl, sampled⟩ := Span.exists_mem_canGive_units (fun u => .unit (.v6 u))
      (fun _ _ => le_rfl) hwanted hstart offered
    exact ⟨l, hl, units.bind sampled⟩

/-- The addresses that the samples of a block can hold are exactly those that may be used, also if only
sources are taken on which every loop ends. -/
theorem Block.exists_mem_sample_iff {wanted : ℕ} (h : 1 ≤ wanted) (b : Block) (a : Address) :
    ((∃ source, a ∈ ((b.sample wanted).run source).1) ↔ b.Admits a) ∧
      ((∃ source, Draw.Settles (b.sample wanted) source ∧ a ∈ ((b.sample wanted).run source).1) ↔
        b.Admits a) := by
  have admits (source : Source) (ha : a ∈ ((b.sample wanted).run source).1) : b.Admits a :=
    (b.always_isSample h source).1 a ha
  have reached (admitted : b.Admits a) : ∃ l, a ∈ l ∧ Draw.CanGive (b.sample wanted) l := by
    cases b with
    | v4 b =>
      cases a with
      | v4 ip => exact IPv4Block.exists_canGive_sample h admitted
      | v6 ip => exact admitted.elim
    | v6 b =>
      cases a with
      | v4 ip => exact admitted.elim
      | v6 ip => exact IPv6Block.exists_canGive_sample h admitted
  have settled (admitted : b.Admits a) : ∃ source, Draw.Settles (b.sample wanted) source ∧
      a ∈ ((b.sample wanted).run source).1 := by
    obtain ⟨l, ha, drawn⟩ := reached admitted
    obtain ⟨source, settles, rfl⟩ := drawn.exists_source
    exact ⟨source, settles, ha⟩
  refine ⟨⟨fun ⟨source, ha⟩ => admits source ha, fun admitted => ?_⟩,
    ⟨fun ⟨source, _, ha⟩ => admits source ha, settled⟩⟩
  obtain ⟨source, -, ha⟩ := settled admitted
  exact ⟨source, ha⟩

/-- Of the last two IPv4 addresses, one is in some sample of all of them, and the other in none. -/
theorem Block.exists_mem_sample_of_last_addresses :
    let all : Block := .v4 ⟨⟨0⟩, 0, by decide⟩
    1 ≤ 3 ∧ (∃ source, Draw.Settles (all.sample 3) source ∧
        .v4 ⟨0xFFFFFFFE⟩ ∈ ((all.sample 3).run source).1) ∧
      ¬∃ source, .v4 ⟨0xFFFFFFFF⟩ ∈ ((all.sample 3).run source).1 := by
  have wanted : 1 ≤ 3 := by decide
  refine ⟨wanted, (Block.exists_mem_sample_iff wanted _ _).2.mpr ⟨by decide, ?_⟩, fun reached => ?_⟩
  · exact ⟨by decide, by decide, fun _ => ⟨by decide, by decide⟩⟩
  · have admitted := (Block.exists_mem_sample_iff wanted _ _).1.mp reached
    exact admitted.2.2.1 rfl

end EdgeScan
