import EdgeScan.Proofs.Address.Block
import EdgeScan.Sampling
import Mathlib.Data.List.Basic

/-!
The units that an IPv4 block is walked in. The walk is one over natural numbers: the sum that leads to
the next unit never wraps around, and at the top of the address space it lies beyond the last address.
So a block of length 24 or less is cut into units without gap or overlap, and a smaller block has one
start, its first address.
-/
namespace EdgeScan.IPv4Block

variable {b : IPv4Block} {ip start : IPv4} {current last : ℕ} {starts : List IPv4}

/-- The walk from unit to unit over natural numbers. It notes where it is, and goes on as long as the
next unit does not lie beyond `last`; that unit then starts at an address. -/
inductive UnitWalk (last : ℕ) : (current : ℕ) → List IPv4 → Prop
  | go {current : ℕ} {starts : List IPv4} (within : current + 256 ≤ last)
      (fits : current + 256 < 2 ^ 32) (later : UnitWalk last (current + 256) starts) :
      UnitWalk last current (IPv4.ofNat current :: starts)
  | stop {current : ℕ} (beyond : last < current + 256) :
      UnitWalk last current [IPv4.ofNat current]

/-- Unit starts are found by a walk over natural numbers. -/
theorem unitWalk_unitStartsFrom (last current : UInt32) (starts : Array IPv4) :
    ∃ walked, (unitStartsFrom last current starts).toList = starts.toList ++ walked ∧
      UnitWalk last.toNat current.toNat walked := by
  have here (current : UInt32) : IPv4.ofNat current.toNat = ⟨current⟩ := IPv4.ofNat_toNat ⟨current⟩
  have hlast := last.toNat_lt
  fun_induction unitStartsFrom last current starts with
  | case1 current starts starts' more ih =>
    obtain ⟨small, within⟩ := more
    have next : (current + 256).toNat = current.toNat + 256 := by
      rw [UInt32.le_iff_toNat_le] at small
      rw [UInt32.toNat_add]
      simp only [UInt32.reduceToNat] at *
      omega
    rw [UInt32.le_iff_toNat_le, next] at within
    obtain ⟨walked, same, walk⟩ := ih
    rw [next] at walk
    refine ⟨⟨current⟩ :: walked, ?_, ?_⟩
    · rw [same, Array.toList_push, List.append_assoc, List.singleton_append]
    · rw [← here current]
      exact .go within (by omega) walk
  | case2 current starts starts' stop =>
    refine ⟨[⟨current⟩], Array.toList_push, ?_⟩
    rw [← here current]
    apply UnitWalk.stop
    by_contra within
    -- an address beyond the next start leaves room for the sum
    apply stop
    simp only [UInt32.le_iff_toNat_le, UInt32.toNat_add, UInt32.reduceToNat]
    omega

/-- The starts of a walk are 256 apart, from its first one up to the last address. -/
theorem UnitWalk.starts_eq (walk : UnitWalk last current starts) (h : current ≤ last) :
    starts = (List.range ((last - current) / 256 + 1)).map fun i => IPv4.ofNat (current + 256 * i) := by
  induction walk with
  | @go current starts within _ _ ih =>
    have count : (last - current) / 256 = (last - (current + 256)) / 256 + 1 := by omega
    rw [ih within, count]
    generalize (last - (current + 256)) / 256 + 1 = k
    rw [List.range_succ_eq_map, List.map_cons, List.map_map]
    simp only [Nat.mul_zero, Nat.add_zero, List.cons.injEq, true_and]
    apply List.map_congr_left
    intro i _
    simp only [Function.comp_apply]
    congr 1
    omega
  | @stop current beyond =>
    have count : (last - current) / 256 = 0 := by omega
    simp [count]

lemma unitWalk_unitStarts (b : IPv4Block) :
    UnitWalk b.broadcast.toNat b.network.toNat b.unitStarts.toList := by
  obtain ⟨walked, same, walk⟩ := unitWalk_unitStartsFrom b.broadcast.bits b.network.bits #[]
  rw [unitStarts, same]
  exact walk

lemma toList_unitStarts_eq : b.unitStarts.toList =
    (List.range ((b.size - 1) / 256 + 1)).map fun i => IPv4.ofNat (b.network.toNat + 256 * i) := by
  have last := b.toNat_broadcast
  have walk := b.unitWalk_unitStarts.starts_eq (by omega)
  rwa [last, Nat.add_sub_cancel_left] at walk

theorem toList_unitStarts (h : b.length ≤ 24) : b.unitStarts.toList =
    (List.range (b.size / 256)).map fun i => IPv4.ofNat (b.network.toNat + 256 * i) := by
  obtain ⟨k, hk⟩ : 256 ∣ b.size := pow_dvd_pow 2 (by omega : 8 ≤ 32 - b.length)
  have pos := b.size_pos
  have count : (b.size - 1) / 256 + 1 = b.size / 256 := by omega
  rw [toList_unitStarts_eq, count]

theorem unitStarts_of_lt (h : 24 < b.length) : b.unitStarts = #[b.network] := by
  have small : b.size ≤ 256 := Nat.pow_le_pow_right (by decide) (by omega : 32 - b.length ≤ 8)
  have count : (b.size - 1) / 256 = 0 := by omega
  apply Array.toList_inj.mp
  rw [toList_unitStarts_eq, count]
  simp [IPv4.ofNat_toNat]

/-! Units as blocks -/

/-- The prefix length of a unit. -/
def unitLength : ℕ := 24

/-- The unit that an address lies in. -/
def unitOf (ip : IPv4) : IPv4Block := ⟨ip, unitLength, by decide⟩

lemma network_unitOf (aligned : 256 ∣ start.toNat) : (unitOf start).network = start := by
  apply IPv4.toNat_inj.mp
  rw [toNat_network]
  exact Nat.div_mul_cancel aligned

lemma contains_unitOf (aligned : 256 ∣ start.toNat) : (unitOf start).contains ip = true ↔
    start.toNat ≤ ip.toNat ∧ ip.toNat < start.toNat + 256 := by
  rw [contains_iff, network_unitOf aligned]
  rfl

section

variable (h : b.length ≤ 24)
include h

lemma size_eq_units : b.size = 256 * 2 ^ (24 - b.length) := by
  rw [show (256 : ℕ) = 2 ^ 8 from rfl, ← pow_add, show 8 + (24 - b.length) = 32 - b.length by omega]
  rfl

theorem map_toNat_unitStarts : b.unitStarts.toList.map IPv4.toNat =
    (List.range (2 ^ (24 - b.length))).map (b.network.toNat + 256 * ·) := by
  have space := b.network_lt
  have size := size_eq_units h
  have count : b.size / 256 = 2 ^ (24 - b.length) := by omega
  rw [toList_unitStarts h, count, List.map_map]
  apply List.map_congr_left
  intro i hi
  rw [List.mem_range] at hi
  exact IPv4.toNat_ofNat (by omega)

lemma mem_unitStarts_iff : start ∈ b.unitStarts.toList ↔
    ∃ i < 2 ^ (24 - b.length), b.network.toNat + 256 * i = start.toNat := by
  have injective : Function.Injective IPv4.toNat := fun _ _ => IPv4.toNat_inj.mp
  rw [← List.mem_map_of_injective injective, map_toNat_unitStarts h]
  simp

lemma dvd_of_mem_unitStarts (hstart : start ∈ b.unitStarts.toList) : 256 ∣ start.toNat := by
  obtain ⟨i, -, place⟩ := (mem_unitStarts_iff h).mp hstart
  have units : 256 ∣ b.size := ⟨_, size_eq_units h⟩
  rw [← place]
  exact Nat.dvd_add (units.trans b.size_dvd_network) (Nat.dvd_mul_right 256 i)

/-- Units start in order, and at least 256 addresses apart. -/
theorem pairwise_unitStarts : b.unitStarts.toList.Pairwise fun s t => s.toNat + 256 ≤ t.toNat := by
  have apart : (b.unitStarts.toList.map IPv4.toNat).Pairwise fun s t => s + 256 ≤ t := by
    rw [map_toNat_unitStarts h, List.pairwise_map]
    apply List.pairwise_lt_range.imp
    intro i j hij
    omega
  exact List.pairwise_map.mp apart

/-- The addresses of a block are those of its units. -/
theorem contains_iff_exists_unit : b.contains ip = true ↔
    ∃ start ∈ b.unitStarts.toList, (unitOf start).contains ip = true := by
  have size := size_eq_units h
  rw [contains_iff]
  constructor
  · rintro ⟨lower, upper⟩
    -- the unit is the one at the quotient of the offset in the block
    let i := (ip.toNat - b.network.toNat) / 256
    have space := b.network_lt
    have hi : i < 2 ^ (24 - b.length) := by omega
    have place : (IPv4.ofNat (b.network.toNat + 256 * i)).toNat = b.network.toNat + 256 * i :=
      IPv4.toNat_ofNat (by omega)
    have mem := (mem_unitStarts_iff h).mpr ⟨i, hi, place.symm⟩
    refine ⟨_, mem, (contains_unitOf (dvd_of_mem_unitStarts h mem)).mpr ?_⟩
    omega
  · rintro ⟨start, hstart, inside⟩
    obtain ⟨i, hi, place⟩ := (mem_unitStarts_iff h).mp hstart
    rw [contains_unitOf (dvd_of_mem_unitStarts h hstart)] at inside
    omega

end

/-- The walk over the units of a block computes with exact numbers. A block of length 24 or less has
2^(24 - length) units, the first at its network address and each 256 addresses behind the one before;
no two of them share an address, and together they hold the addresses of the block and no other. A
smaller block has its network address for its only start. -/
theorem unitStarts_tile (b : IPv4Block) :
    UnitWalk b.broadcast.toNat b.network.toNat b.unitStarts.toList ∧
      (b.length ≤ 24 →
        b.unitStarts.toList.map IPv4.toNat =
            (List.range (2 ^ (24 - b.length))).map (b.network.toNat + 256 * ·) ∧
          (∀ start ∈ b.unitStarts.toList, (unitOf start).network = start) ∧
          b.unitStarts.toList.Pairwise (fun s t =>
            ∀ ip, ¬((unitOf s).contains ip = true ∧ (unitOf t).contains ip = true)) ∧
          ∀ ip, b.contains ip = true ↔
            ∃ start ∈ b.unitStarts.toList, (unitOf start).contains ip = true) ∧
      (24 < b.length → b.unitStarts = #[b.network]) := by
  refine ⟨b.unitWalk_unitStarts, fun h => ⟨map_toNat_unitStarts h, ?_, ?_, ?_⟩, unitStarts_of_lt⟩
  · intro start hstart
    exact network_unitOf (dvd_of_mem_unitStarts h hstart)
  · refine (pairwise_unitStarts h).imp_of_mem fun hs ht apart ip both => ?_
    rw [contains_unitOf (dvd_of_mem_unitStarts h hs),
      contains_unitOf (dvd_of_mem_unitStarts h ht)] at both
    omega
  · intro ip
    exact contains_iff_exists_unit h

/-- The units of 255.255.252.9/22, the last four of the address space, and the start of a smaller
block. -/
theorem unitStarts_tile_top :
    let b : IPv4Block := ⟨IPv4.ofNat 0xfffffc09, 22, by decide⟩
    let small : IPv4Block := ⟨IPv4.ofNat 0xfffffff9, 29, by decide⟩
    b.length ≤ 24 ∧ 24 < small.length ∧
      b.unitStarts.toList.map IPv4.toNat = [0xfffffc00, 0xfffffd00, 0xfffffe00, 0xffffff00] ∧
      (∃ start ∈ b.unitStarts.toList, (unitOf start).contains (IPv4.ofNat 0xffffffff) = true) ∧
      small.unitStarts = #[IPv4.ofNat 0xfffffff8] := by
  intro b small
  have h : b.length ≤ 24 := by decide
  have hsmall : 24 < small.length := by decide
  obtain ⟨numbers, -, -, whole⟩ := (unitStarts_tile b).2.1 h
  refine ⟨h, hsmall, ?_, ?_, ?_⟩
  · rw [numbers]
    decide
  · exact (whole _).mp (by decide)
  · rw [(unitStarts_tile small).2.2 hsmall]
    decide

end EdgeScan.IPv4Block
