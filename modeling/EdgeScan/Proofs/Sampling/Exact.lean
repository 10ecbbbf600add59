import EdgeScan.Proofs.Sampling.Blocks
import Mathlib.Algebra.BigOperators.Group.List.Basic
import Mathlib.Data.List.ReduceOption

/-!
Samples are exact. A block is cut into spans of at most one unit, and each span into segments; a
sample has one address of every segment in which there is one that may be used, and those in the
order of the segments. So the draws decide which addresses are sampled, but not how many, and there
are some if the block has any that may be used. This holds for every source, so also for those on
which all loops of a sample end.
-/
namespace EdgeScan

namespace Span

variable {s : Span} {size wanted x : ℕ} {a : Address}

theorem pairwise_segments (size wanted : ℕ) :
    (segments size wanted).Pairwise fun u v => u.start + u.width ≤ v.start := by
  refine List.pairwise_map.mpr (List.pairwise_lt_range.imp_of_mem fun {i j} _ hj hij => ?_)
  rw [List.mem_range] at hj
  have notLast : i + 1 ≠ min wanted size := by omega
  simp only [segment, if_neg notLast]
  generalize size / min wanted size = width
  have step : (i + 1) * width ≤ j * width := Nat.mul_le_mul_right _ hij
  rw [Nat.succ_mul] at step
  omega

lemma length_segments (size wanted : ℕ) : (segments size wanted).length = min wanted size := by
  rw [segments, List.length_map, List.length_range]

theorem rank_of_at? (h : s.at? x = some a) : a.rank = s.start.rank + x := by
  unfold at? at h
  split at h
  · rename_i ip start
    split_ifs at h with space
    rw [start, ← Option.some.inj h]
    exact IPv4.toNat_ofNat space
  · rename_i ip start
    split_ifs at h with space
    rw [start, ← Option.some.inj h, Address.rank, IPv6.toNat_ofNat space, Address.rank, add_assoc]

end Span

/-! Rows -/

namespace Block

/-- An address of a block that may be used, at an offset in a segment of a span. -/
def Has (b : Block) (s : Span) (seg : Segment) (a : Address) : Prop :=
  ∃ x, seg.start ≤ x ∧ x < seg.start + seg.width ∧ s.at? x = some a ∧ b.Admits a

/-- What a segment gives: an address that may be used, or nothing if there is none. -/
inductive Gives (b : Block) (s : Span) (seg : Segment) : Option Address → Prop
  | found {a : Address} (has : b.Has s seg a) : Gives b s seg (some a)
  | nothing (empty : ∀ a, ¬b.Has s seg a) : Gives b s seg none

/-- What the segments of a span give, in their order. -/
def IsRow (b : Block) (wanted : ℕ) (s : Span) (row : List (Option Address)) : Prop :=
  List.Forall₂ (b.Gives s) (Span.segments s.size wanted) row

variable {b : Block} {s : Span} {segs : List Segment} {row : List (Option Address)} {wanted : ℕ}

open Classical in
/-- The number of segments of a span in which there is an address that may be used. -/
noncomputable def yield (b : Block) (wanted : ℕ) (s : Span) : ℕ :=
  (Span.segments s.size wanted).countP fun seg => ∃ a, b.Has s seg a

lemma Gives.has {seg : Segment} {a : Address} (gives : b.Gives s seg (some a)) :
    b.Has s seg a := by
  cases gives with
  | found has => exact has

theorem pairwise_of_gives (gives : List.Forall₂ (b.Gives s) segs row)
    (ordered : segs.Pairwise fun u v => u.start + u.width ≤ v.start) :
    row.reduceOption.Pairwise fun a b => a.rank < b.rank := by
  induction gives with
  | nil => exact .nil
  | @cons seg found segs row gives rest ih =>
    obtain ⟨first, ordered⟩ := List.pairwise_cons.mp ordered
    cases gives with
    | nothing => exact ih ordered
    | found has =>
      refine List.pairwise_cons.mpr ⟨fun a' ha' => ?_, ih ordered⟩
      obtain ⟨x, -, upper, place, -⟩ := has
      obtain ⟨seg', hseg', gives'⟩ :=
        exists_of_mem_right rest _ (List.reduceOption_mem_iff.mp ha')
      obtain ⟨x', lower', -, place', -⟩ := gives'.has
      have apart := first seg' hseg'
      rw [Span.rank_of_at? place, Span.rank_of_at? place']
      omega

open Classical in
lemma length_of_gives (gives : List.Forall₂ (b.Gives s) segs row) :
    row.reduceOption.length = segs.countP fun seg => ∃ a, b.Has s seg a := by
  induction gives with
  | nil => rfl
  | @cons seg found segs row gives rest ih =>
    cases gives with
    | nothing empty =>
      have empty : ¬∃ a, b.Has s seg a := not_exists.mpr empty
      rw [List.reduceOption_cons_of_none, ih, List.countP_cons_of_neg (by simpa using empty)]
    | found has =>
      have some_ : ∃ a, b.Has s seg a := ⟨_, has⟩
      rw [List.reduceOption_cons_of_some, List.length_cons, ih,
        List.countP_cons_of_pos (by simpa using some_)]

end Block

/-! Spans -/

/-- A part of a block: a span whose acceptable addresses are those of the block that may be used. -/
structure Span.IsPartOf (s : Span) (b : Block) : Prop where
  regular : s.Regular
  accepts_iff : ∀ x < s.size, ∀ a, s.at? x = some a → (s.accepts a = true ↔ b.Admits a)

namespace Span

variable {s : Span} {b : Block} {seg : Segment} {a : Address} {found : Option Address} {wanted : ℕ}

lemma IsUnitOf.isPartOf (unit : s.IsUnitOf b) (accepts : ∀ a, b.Admits a → s.accepts a = true) :
    s.IsPartOf b where
  regular := unit.regular
  accepts_iff x hx a place :=
    ⟨fun accepted => unit.admits a ⟨x, Nat.zero_le x, hx, place, accepted⟩, accepts a⟩

lemma isPartOf_ofIPv4Block {b : IPv4Block} (small : 24 ≤ b.length) :
    (ofIPv4Block b).IsPartOf (.v4 b) where
  regular := regular_ofIPv4Block small
  accepts_iff x hx a place := by
    refine ⟨fun accepted => offers_ofIPv4Block.mp ⟨x, Nat.zero_le x, hx, place, accepted⟩, ?_⟩
    intro admitted
    cases a with
    | v4 ip => exact accepts_ofIPv4Block.mpr admitted.2
    | v6 ip => exact admitted.elim

lemma isPartOf_ofIPv6Block {b : IPv6Block} (small : 120 ≤ b.length) :
    (ofIPv6Block b).IsPartOf (.v6 b) := by
  rw [ofIPv6Block_eq small]
  refine ⟨regular_v6 (IPv6Block.size_le_unit small) b.network_lt, fun x hx a place => ?_⟩
  have space := b.network_lt
  have inside : x < b.size := hx
  rw [at?_v6 (by omega), Option.some.injEq] at place
  have toNat : (IPv6.ofNat (b.network.toNat + x)).toNat = b.network.toNat + x :=
    IPv6.toNat_ofNat (by omega)
  rw [← place]
  exact iff_of_true rfl (b.contains_iff.mpr (by omega))

lemma IsPartOf.offers_iff (part : s.IsPartOf b) (within : seg.start + seg.width ≤ s.size) :
    s.Offers seg.start (seg.start + seg.width) a ↔ b.Has s seg a := by
  refine exists_congr fun x => and_congr_right fun _ => and_congr_right fun upper => ?_
  exact and_congr_right fun place => part.accepts_iff x (by omega) a place

lemma IsPartOf.gives (part : s.IsPartOf b) (within : seg.start + seg.width ≤ s.size)
    (picks : s.Picks seg found) : b.Gives s seg found := by
  cases found with
  | none =>
    exact .nothing fun a has => absurd (picks.2 ⟨a, (part.offers_iff within).mpr has⟩) (by simp)
  | some a => exact .found ((part.offers_iff within).mp (picks.1 a rfl))

theorem IsPartOf.always_sample (part : s.IsPartOf b) (wanted : ℕ) :
    Draw.Always (fun l => ∃ row, b.IsRow wanted s row ∧ l = row.reduceOption)
      (s.sample wanted) := by
  have each (seg : Segment) (hseg : seg ∈ segments s.size wanted) :
      Draw.Always (b.Gives s seg) (s.sampleSegment seg) := by
    obtain ⟨width, within⟩ := within_of_mem_segments hseg
    exact (part.regular.always_sampleSegment width within).imp fun found picks =>
      part.gives within picks
  refine (Draw.always_mapM each).bind fun row hrow => Draw.always_pure ?_
  exact ⟨row, hrow, rfl⟩

lemma persists_sample (s : Span) (wanted : ℕ) : Draw.Persists (s.sample wanted) := by
  refine (Draw.persists_mapM (fun seg => ?_) _).bind fun found => Draw.persists_pure _
  exact (FullCycle.persists_draw _).bind fun c => Draw.persists_pure _

end Span

/-- The spans that a block is sampled in, in their order: the block itself if it is no larger than a
unit, all units of a larger IPv4 block, and a hundred units of a larger IPv6 block. -/
inductive Block.IsCutInto : Block → List Span → Prop
  | whole4 {b : IPv4Block} (small : 24 ≤ b.length) : IsCutInto (.v4 b) [.ofIPv4Block b]
  | units4 {b : IPv4Block} (large : b.length < 24) :
      IsCutInto (.v4 b) ((List.range (b.size / 256)).map fun i =>
        .unit (.v4 (.ofNat (b.network.toNat + 256 * i))))
  | whole6 {b : IPv6Block} (small : 120 ≤ b.length) : IsCutInto (.v6 b) [.ofIPv6Block b]
  | units6 {b : IPv6Block} {starts : List IPv6} (large : b.length < 120)
      (count : starts.length = 100) (aligned : ∀ start ∈ starts,
        ∃ i < 2 ^ (120 - b.length), start.toNat = b.network.toNat + i * 256) :
      IsCutInto (.v6 b) (starts.map fun start => .unit (.v6 start))

namespace Block

variable {b : Block} {s : Span} {spans spans' : List Span} {wanted : ℕ}

lemma IsCutInto.isPartOf (cut : b.IsCutInto spans) (hs : s ∈ spans) : s.IsPartOf b := by
  cases cut with
  | whole4 small => exact List.mem_singleton.mp hs ▸ Span.isPartOf_ofIPv4Block small
  | whole6 small => exact List.mem_singleton.mp hs ▸ Span.isPartOf_ofIPv6Block small
  | @units4 b large =>
    obtain ⟨i, hi, rfl⟩ := List.mem_map.mp hs
    refine (IPv4Block.isUnitOf large (List.mem_range.mp hi)).isPartOf fun a admitted => ?_
    cases a with
    | v4 ip => exact Span.accepts_unit.mpr ⟨admitted.2.1, admitted.2.2.1⟩
    | v6 ip => exact admitted.elim
  | units6 large count aligned =>
    obtain ⟨start, hstart, rfl⟩ := List.mem_map.mp hs
    obtain ⟨i, hi, place⟩ := aligned start hstart
    refine (IPv6Block.isUnitOf large hi place).isPartOf fun a admitted => ?_
    cases a with
    | v4 ip => exact admitted.elim
    | v6 ip => rfl

variable {α : Type} {starts : List α} {span : α → Span}

lemma exists_rows {samples : List (List Address)} (drawn : List.Forall₂ (fun u l =>
    ∃ row, b.IsRow wanted (span u) row ∧ l = row.reduceOption) starts samples) :
    ∃ rows, List.Forall₂ (b.IsRow wanted) (starts.map span) rows ∧
      samples.flatten = rows.flatMap List.reduceOption := by
  induction drawn with
  | nil => exact ⟨[], .nil, rfl⟩
  | cons first _ ih =>
    obtain ⟨row, hrow, rfl⟩ := first
    obtain ⟨rows, hrows, same⟩ := ih
    exact ⟨row :: rows, .cons hrow hrows, by rw [List.flatten_cons, same, List.flatMap_cons]⟩

/-- What a sample of a block consists of: the block is cut into spans, and each gives a row. -/
def Consists (b : Block) (wanted : ℕ) (l : List Address) (spans : List Span)
    (rows : List (List (Option Address))) : Prop :=
  b.IsCutInto spans ∧ List.Forall₂ (b.IsRow wanted) spans rows ∧ l = rows.flatMap List.reduceOption

lemma always_consists_of_whole (cut : b.IsCutInto [s]) (wanted : ℕ) :
    Draw.Always (fun l => ∃ spans rows, b.Consists wanted l spans rows) (s.sample wanted) := by
  refine ((cut.isPartOf List.mem_cons_self).always_sample wanted).imp fun l drawn => ?_
  obtain ⟨row, hrow, rfl⟩ := drawn
  exact ⟨[s], [row], cut, .cons hrow .nil, by simp⟩

lemma always_consists_of_units (cut : b.IsCutInto (starts.map span)) (wanted : ℕ) :
    Draw.Always (fun l => ∃ spans rows, b.Consists wanted l spans rows) (do
      let samples ← starts.mapM fun u => (span u).sample wanted
      return samples.flatten) := by
  have each (u : α) (hu : u ∈ starts) :=
    (cut.isPartOf (List.mem_map_of_mem hu)).always_sample wanted
  refine (Draw.always_mapM each).bind fun samples drawn => Draw.always_pure ?_
  obtain ⟨rows, hrows, same⟩ := exists_rows drawn
  exact ⟨starts.map span, rows, cut, hrows, same⟩

/-- Whatever is drawn, the sample of a block consists of rows. -/
theorem always_consists (b : Block) (wanted : ℕ) :
    Draw.Always (fun l => ∃ spans rows, b.Consists wanted l spans rows) (b.sample wanted) := by
  cases b with
  | v4 b =>
    simp only [Block.sample]
    split
    · rename_i small
      exact always_consists_of_whole (.whole4 small) wanted
    · rename_i large
      have cut : (Block.v4 b).IsCutInto
          (b.unitStarts.toList.map fun start => .unit (.v4 start)) := by
        rw [b.toList_unitStarts (by omega), List.map_map]
        exact .units4 (by omega)
      exact always_consists_of_units cut wanted
  | v6 b =>
    simp only [Block.sample]
    split
    · rename_i small
      exact always_consists_of_whole (.whole6 small) wanted
    · rename_i large
      refine (IPv6Block.always_drawUnits (by omega)).bind fun starts drawn => ?_
      exact always_consists_of_units (.units6 (by omega) drawn.1 drawn.2) wanted

/-- A sample of a block settles on a source only if each of its loops does. -/
theorem persists_sample (b : Block) (wanted : ℕ) : Draw.Persists (b.sample wanted) := by
  have units {α : Type} (starts : List α) (span : α → Span) : Draw.Persists (do
      let samples ← starts.mapM fun u => (span u).sample wanted
      return samples.flatten) :=
    (Draw.persists_mapM (fun u => (span u).persists_sample wanted) starts).bind fun samples =>
      Draw.persists_pure _
  cases b with
  | v4 b =>
    simp only [Block.sample]
    split
    · exact Span.persists_sample _ wanted
    · exact units _ fun start => .unit (.v4 start)
  | v6 b =>
    simp only [Block.sample]
    split
    · exact Span.persists_sample _ wanted
    · refine (Draw.persists_mapM (fun u => ?_) _).bind fun starts =>
        units starts fun start => .unit (.v6 start)
      exact (Draw.persists_below 16 _).bind fun index => Draw.persists_pure _

/-! Consequences -/

variable {l : List Address} {rows : List (List (Option Address))}

lemma Consists.admits (consists : b.Consists wanted l spans rows) {a : Address} (ha : a ∈ l) :
    b.Admits a := by
  obtain ⟨-, hrows, rfl⟩ := consists
  obtain ⟨row, hrow, ha⟩ := List.mem_flatMap.mp ha
  obtain ⟨s, -, gives⟩ := exists_of_mem_right hrows row hrow
  obtain ⟨seg, -, gives⟩ := exists_of_mem_right gives _ (List.reduceOption_mem_iff.mp ha)
  obtain ⟨x, -, -, -, admitted⟩ := gives.has
  exact admitted

/-- However a block is cut, some segment has an address that may be used if the block has one. -/
theorem IsCutInto.exists_has (cut : b.IsCutInto spans) (hwanted : 0 < wanted)
    (usable : ∃ a, b.Admits a) :
    ∃ s ∈ spans, ∃ seg ∈ Span.segments s.size wanted, ∃ a, b.Has s seg a := by
  have parts (s : Span) (hs : s ∈ spans) : s.IsPartOf b := cut.isPartOf hs
  have offers : ∃ s ∈ spans, ∃ a, s.Offers 0 s.size a := by
    obtain ⟨a, ha⟩ := usable
    cases cut with
    | @whole4 b small =>
      exact ⟨_, List.mem_cons_self, a, Span.offers_ofIPv4Block.mpr ha⟩
    | @units4 b large =>
      have whole : 256 ∣ b.size := pow_dvd_pow 2 (by omega : 8 ≤ 32 - b.length)
      have pos : 0 < b.size / 256 := Nat.div_pos (Nat.le_of_dvd b.size_pos whole) (by decide)
      exact ⟨_, List.mem_map_of_mem (List.mem_range.mpr pos), (IPv4Block.isUnitOf large pos).offers⟩
    | @whole6 b small =>
      cases a with
      | v4 ip => exact ha.elim
      | v6 ip =>
        refine ⟨_, List.mem_cons_self, .v6 ip, ?_⟩
        rw [Span.ofIPv6Block_eq small]
        exact (Span.offers_v6 b.network_lt).mpr ⟨ip, rfl, b.contains_iff.mp ha⟩
    | @units6 b starts large count aligned =>
      obtain ⟨start, hstart⟩ : ∃ start, start ∈ starts :=
        List.exists_mem_of_length_pos (count ▸ by decide)
      obtain ⟨i, hi, place⟩ := aligned start hstart
      exact ⟨_, List.mem_map_of_mem hstart, (IPv6Block.isUnitOf large hi place).offers⟩
  obtain ⟨s, hs, a, x, -, hx, place, accepted⟩ := offers
  obtain ⟨seg, hseg, lower, upper⟩ := Span.exists_segment hx hwanted
  exact ⟨s, hs, seg, hseg, a, x, lower, upper, place,
    ((parts s hs).accepts_iff x hx a place).mp accepted⟩

lemma Consists.ne_nil (consists : b.Consists wanted l spans rows) (hwanted : 0 < wanted)
    (usable : ∃ a, b.Admits a) : l ≠ [] := by
  obtain ⟨cut, hrows, rfl⟩ := consists
  obtain ⟨s, hs, seg, hseg, a, has⟩ := cut.exists_has hwanted usable
  obtain ⟨row, hrow, gives⟩ := exists_of_mem_left hrows s hs
  obtain ⟨found, hfound, gives⟩ := exists_of_mem_left gives seg hseg
  cases gives with
  | nothing empty => exact absurd has (empty a)
  | found =>
    have mem := List.reduceOption_mem_iff.mpr hfound
    exact List.ne_nil_of_mem (List.mem_flatMap.mpr ⟨row, hrow, mem⟩)

/-- What a sample of a block is: addresses that may be used, at least one if there are any. -/
def IsSample (b : Block) (l : List Address) : Prop :=
  (∀ a ∈ l, b.Admits a) ∧ ((∃ a, b.Admits a) → l ≠ [])

theorem always_isSample (hwanted : 0 < wanted) (b : Block) :
    Draw.Always b.IsSample (b.sample wanted) := by
  refine (b.always_consists wanted).imp fun l drawn => ?_
  obtain ⟨spans, rows, consists⟩ := drawn
  exact ⟨fun a => consists.admits, consists.ne_nil hwanted⟩

lemma Consists.pairwise (consists : b.Consists wanted l spans rows) {row : List (Option Address)}
    (hrow : row ∈ rows) : row.reduceOption.Pairwise fun a b => a.rank < b.rank := by
  obtain ⟨s, -, gives⟩ := exists_of_mem_right consists.2.1 row hrow
  exact pairwise_of_gives gives (Span.pairwise_segments s.size wanted)

lemma Consists.length_eq (consists : b.Consists wanted l spans rows) :
    l.length = (spans.map (b.yield wanted)).sum := by
  obtain ⟨-, hrows, rfl⟩ := consists
  rw [List.length_flatMap]
  refine congrArg List.sum ?_
  induction hrows with
  | nil => rfl
  | cons gives _ ih => rw [List.map_cons, List.map_cons, ih, length_of_gives gives, yield]

open Classical in
theorem yield_v6 {start : IPv6} (part : (Span.unit (.v6 start)).IsPartOf b) :
    b.yield wanted (.unit (.v6 start)) = min wanted 256 := by
  rw [yield, List.countP_eq_length.mpr, Span.length_segments]
  · rfl
  intro seg hseg
  obtain ⟨width, within⟩ := Span.within_of_mem_segments hseg
  obtain ⟨a, place⟩ := part.regular.reach seg.start (by omega)
  have accepted : (Span.unit (.v6 start)).accepts a = true := by
    simp only [Span.unit, Span.at?] at place
    split_ifs at place
    rw [← Option.some.inj place]
    rfl
  have admitted := (part.accepts_iff seg.start (by omega) a place).mp accepted
  rw [decide_eq_true_eq]
  exact ⟨a, seg.start, le_rfl, by omega, place, admitted⟩

lemma sum_yield_units6 {starts : List IPv6}
    (parts : ∀ start ∈ starts, (Span.unit (.v6 start)).IsPartOf b) :
    ((starts.map fun start => Span.unit (.v6 start)).map (b.yield wanted)).sum =
      starts.length * min wanted 256 := by
  have each : ∀ n ∈ (starts.map fun start => Span.unit (.v6 start)).map (b.yield wanted),
      n = min wanted 256 := by
    simp only [List.forall_mem_map]
    exact fun start hstart => yield_v6 (parts start hstart)
  rw [List.sum_eq_card_nsmul _ _ each, List.length_map, List.length_map, smul_eq_mul]

/-- All cuts of a block have as many segments with an address that may be used. -/
theorem IsCutInto.sum_yield (cut : b.IsCutInto spans) (cut' : b.IsCutInto spans') :
    (spans.map (b.yield wanted)).sum = (spans'.map (b.yield wanted)).sum := by
  have parts (s : Span) (hs : s ∈ spans) : s.IsPartOf b := cut.isPartOf hs
  have parts' (s : Span) (hs : s ∈ spans') : s.IsPartOf b := cut'.isPartOf hs
  cases cut with
  | whole4 small =>
    cases cut' with
    | whole4 => rfl
    | units4 large => exact absurd small (by omega)
  | units4 large =>
    cases cut' with
    | whole4 small => exact absurd small (by omega)
    | units4 => rfl
  | whole6 small =>
    cases cut' with
    | whole6 => rfl
    | units6 large => exact absurd small (by omega)
  | units6 large count =>
    cases cut' with
    | whole6 small => exact absurd small (by omega)
    | units6 _ count' =>
      rw [sum_yield_units6 (List.forall_mem_map.mp parts), count,
        sum_yield_units6 (List.forall_mem_map.mp parts'), count']

/-- The segments of a span are as many as addresses are wanted, or offsets there are, and cut it
into consecutive runs. A sample has exactly one address of each segment in which there is one that
may be used, and nothing of the others, in the order of spans and segments; so the addresses of a
span get higher. No offset of a segment is tried twice, and what is drawn makes no difference to the
number of addresses. -/
theorem sample_exact (h : 1 ≤ wanted) (b : Block) (source : Source) :
    let l := ((b.sample wanted).run source).1
    ∃ (spans : List Span) (rows : List (List (Option Address))),
      b.IsCutInto spans ∧
      (∀ s ∈ spans, (Span.segments s.size wanted).length = min wanted s.size ∧
        (Span.segments s.size wanted).flatMap (fun seg => List.range' seg.start seg.width) =
          List.range s.size) ∧
      List.Forall₂ (b.IsRow wanted) spans rows ∧ l = rows.flatMap List.reduceOption ∧
      (∀ a ∈ l, b.Admits a) ∧
      (∀ row ∈ rows, row.reduceOption.Pairwise fun a b => a.rank < b.rank) ∧
      (∀ s ∈ spans, ∀ seg ∈ Span.segments s.size wanted,
        Draw.Always (fun c => (Span.tries seg c).Nodup) (FullCycle.draw seg.width.toUInt64)) ∧
      ∀ source', ((b.sample wanted).run source').1.length = l.length := by
  intro l
  obtain ⟨spans, rows, consists⟩ := b.always_consists wanted source
  refine ⟨spans, rows, consists.1, fun s _ => ⟨Span.length_segments _ _,
    Span.flatMap_segments _ h⟩, consists.2.1, consists.2.2, fun a => consists.admits,
    fun row => consists.pairwise, fun s hs seg hseg => ?tries, fun source' => ?length⟩
  case tries =>
    have size := (consists.1.isPartOf hs).regular.size_le
    obtain ⟨width, within⟩ := Span.within_of_mem_segments hseg
    exact (Span.always_drawCycle width (by omega)).imp fun c walks => walks.nodup_tries
  case length =>
    obtain ⟨spans', rows', consists'⟩ := b.always_consists wanted source'
    calc ((b.sample wanted).run source').1.length
      _ = (spans'.map (b.yield wanted)).sum := consists'.length_eq
      _ = (spans.map (b.yield wanted)).sum := consists'.1.sum_yield consists.1
      _ = l.length := consists.length_eq.symm

/-- Of a block of four addresses, a sample always has the two in the middle. -/
theorem sample_exact_four_addresses :
    let b : Block := .v4 ⟨⟨0x0A000000⟩, 30, by decide⟩
    1 ≤ 4 ∧ ((b.sample 4).run default).1 = [.v4 ⟨0x0A000001⟩, .v4 ⟨0x0A000002⟩] ∧
      ∀ source, ((b.sample 4).run source).1.length = 2 := by
  intro b
  have wanted : 1 ≤ 4 := by decide
  have drawn : ((b.sample 4).run default).1 = [.v4 ⟨0x0A000001⟩, .v4 ⟨0x0A000002⟩] := by
    decide +kernel
  obtain ⟨_, _, -, -, -, -, -, -, -, same⟩ := sample_exact wanted b default
  rw [drawn] at same
  exact ⟨wanted, drawn, same⟩

end Block

end EdgeScan
