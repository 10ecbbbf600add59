import EdgeScan.Proofs.Sampling.Segments
import EdgeScan.Proofs.Sampling.Units

/-!
The spans that blocks are sampled in. A small block is one span. A larger one is walked in units, all
of them if it is an IPv4 block and drawn ones if it is an IPv6 block.
-/
namespace EdgeScan

namespace Span

variable {s : Span} {a : Address} {x : ℕ} {bounds : Option (IPv4 × IPv4)}

lemma at?_v4 {ip : IPv4} {size : ℕ} (h : ip.toNat + x < 2 ^ 32) :
    at? ⟨.v4 ip, size, bounds⟩ x = some (.v4 (IPv4.ofNat (ip.toNat + x))) := if_pos h

lemma at?_v6 {ip : IPv6} {size : ℕ} (h : ip.toNat + x < 2 ^ 128) :
    at? ⟨.v6 ip, size, bounds⟩ x = some (.v6 (IPv6.ofNat (ip.toNat + x))) := if_pos h

lemma accepts_ofIPv4Block {b : IPv4Block} {ip : IPv4} :
    (ofIPv4Block b).accepts (.v4 ip) = true ↔ ip.lastOctet ≠ 0 ∧ ip.lastOctet ≠ 255 ∧
      (b.length ≤ 30 → ip ≠ b.network ∧ ip ≠ b.broadcast) := by
  by_cases short : b.length ≤ 30 <;> simp [accepts, ofIPv4Block, short, and_assoc]

lemma accepts_unit {start : Address} {ip : IPv4} :
    (unit start).accepts (.v4 ip) = true ↔ ip.lastOctet ≠ 0 ∧ ip.lastOctet ≠ 255 := by
  simp [accepts, unit]

theorem offers_ofIPv4Block {b : IPv4Block} :
    (ofIPv4Block b).Offers 0 b.size a ↔ (Block.v4 b).Admits a := by
  have space := b.network_lt
  constructor
  · rintro ⟨x, -, hx, found, accepted⟩
    rw [ofIPv4Block, at?_v4 (by omega), Option.some.injEq] at found
    subst found
    have toNat := IPv4Block.toNat_ofNat_network_add hx
    exact ⟨b.contains_iff.mpr (by omega), accepts_ofIPv4Block.mp accepted⟩
  · intro admitted
    cases a with
    | v6 ip => exact admitted.elim
    | v4 ip =>
      have bounds := b.contains_iff.mp admitted.1
      refine ⟨ip.toNat - b.network.toNat, Nat.zero_le _, by omega, ?_,
        accepts_ofIPv4Block.mpr admitted.2⟩
      have back : b.network.toNat + (ip.toNat - b.network.toNat) = ip.toNat := by omega
      rw [ofIPv4Block, at?_v4 (by omega), back, IPv4.ofNat_toNat]

lemma regular_ofIPv4Block {b : IPv4Block} (h : 24 ≤ b.length) : (ofIPv4Block b).Regular where
  size_le := Nat.pow_le_pow_right (by decide) (by omega : 32 - b.length ≤ 8)
  reach x hx := by
    have space := b.network_lt
    have hx' : x < b.size := hx
    exact ⟨_, at?_v4 (by omega)⟩
  inner x a hpos hlt found := by
    have space := b.network_lt
    have hlt' : x + 1 < b.size := hlt
    rw [ofIPv4Block, at?_v4 (by omega), Option.some.injEq] at found
    subst found
    -- an address that ends in 0 or 255 stands at a multiple of the size, or right in front of one
    have unit : b.size ∣ 256 := pow_dvd_pow 2 (by omega : 32 - b.length ≤ 8)
    have multiple (y : ℕ) (hy : 0 < y) (hyx : y < b.size) : ¬256 ∣ b.network.toNat + y := by
      intro hdvd
      have hy' := (Nat.dvd_add_right b.size_dvd_network).mp (unit.trans hdvd)
      exact Nat.not_dvd_of_pos_of_lt hy hyx hy'
    have first := multiple x hpos (by omega)
    have last := multiple (x + 1) (by omega) hlt'
    exact accepts_ofIPv4Block.mpr (IPv4Block.admits_network_add (by omega) (by omega) (by omega)
      fun _ => ⟨hpos, hlt'⟩).2

lemma regular_unit_v4 {ip : IPv4} (aligned : 256 ∣ ip.toNat) : (unit (.v4 ip)).Regular where
  size_le := le_rfl
  reach x hx := by
    have space := ip.toNat_lt
    have hx' : x < 256 := hx
    exact ⟨_, at?_v4 (by omega)⟩
  inner x a hpos hlt found := by
    have space := ip.toNat_lt
    have hlt' : x + 1 < 256 := hlt
    rw [unit, at?_v4 (by omega), Option.some.injEq] at found
    subst found
    refine accepts_unit.mpr ⟨?_, ?_⟩
    · rw [Ne, IPv4.lastOctet_eq_iff, IPv4.toNat_ofNat (by omega)]
      simp only [UInt8.reduceToNat]
      omega
    · rw [Ne, IPv4.lastOctet_eq_iff, IPv4.toNat_ofNat (by omega)]
      simp only [UInt8.reduceToNat]
      omega

theorem regular_v6 {ip : IPv6} {size : ℕ} (small : size ≤ 256) (space : ip.toNat + size ≤ 2 ^ 128) :
    Regular ⟨.v6 ip, size, none⟩ where
  size_le := small
  reach x hx := ⟨_, at?_v6 (by have hx' : x < size := hx; omega)⟩
  inner x a _ hlt found := by
    have hlt' : x + 1 < size := hlt
    rw [at?_v6 (by omega), Option.some.injEq] at found
    subst found
    rfl

lemma offers_v6 {ip : IPv6} {size : ℕ} (space : ip.toNat + size ≤ 2 ^ 128) :
    Offers ⟨.v6 ip, size, none⟩ 0 size a ↔
      ∃ found, a = .v6 found ∧ ip.toNat ≤ found.toNat ∧ found.toNat < ip.toNat + size := by
  constructor
  · rintro ⟨x, -, hx, found, -⟩
    rw [at?_v6 (by omega), Option.some.injEq] at found
    have toNat : (IPv6.ofNat (ip.toNat + x)).toNat = ip.toNat + x := IPv6.toNat_ofNat (by omega)
    exact ⟨_, found.symm, by omega, by omega⟩
  · rintro ⟨found, rfl, lower, upper⟩
    refine ⟨found.toNat - ip.toNat, Nat.zero_le _, by omega, ?_, rfl⟩
    have back : ip.toNat + (found.toNat - ip.toNat) = found.toNat := by omega
    have same : IPv6.ofNat found.toNat = found :=
      IPv6.toNat_inj.mp (IPv6.toNat_ofNat found.toNat_lt)
    rw [at?_v6 (by omega), back, same]

end Span

/-- A unit of a block: its addresses may be used if they are acceptable in the unit, and there are
some. -/
structure Span.IsUnitOf (s : Span) (b : Block) : Prop where
  regular : s.Regular
  admits : ∀ a, s.Offers 0 s.size a → b.Admits a
  offers : ∃ a, s.Offers 0 s.size a

theorem IPv4Block.isUnitOf {b : IPv4Block} (h : b.length < 24) {i : ℕ} (hi : i < b.size / 256) :
    (Span.unit (.v4 (.ofNat (b.network.toNat + 256 * i)))).IsUnitOf (.v4 b) := by
  have space := b.network_lt
  have whole : 256 ∣ b.size := pow_dvd_pow 2 (by omega : 8 ≤ 32 - b.length)
  have aligned : 256 ∣ b.network.toNat := whole.trans b.size_dvd_network
  have bound : 256 * i + 256 ≤ b.size := by
    obtain ⟨k, hk⟩ := whole
    omega
  have toNat : (IPv4.ofNat (b.network.toNat + 256 * i)).toNat = b.network.toNat + 256 * i :=
    IPv4.toNat_ofNat (by omega)
  have regular := Span.regular_unit_v4 (toNat ▸ (Nat.dvd_add aligned (Nat.dvd_mul_right 256 i)))
  refine ⟨regular, ?_, ?_⟩
  · rintro a ⟨x, -, hx, found, accepted⟩
    have hx' : x < 256 := hx
    rw [Span.unit, Span.at?_v4 (by omega), Option.some.injEq] at found
    subst found
    have here : (IPv4.ofNat ((IPv4.ofNat (b.network.toNat + 256 * i)).toNat + x)).toNat =
        b.network.toNat + 256 * i + x := by
      rw [toNat]
      exact IPv4.toNat_ofNat (by omega)
    obtain ⟨first, last⟩ := Span.accepts_unit.mp accepted
    refine ⟨b.contains_iff.mpr (by omega), first, last, fun _ => ⟨?_, ?_⟩⟩
    -- the network address ends in 0, and the broadcast address in 255
    · rintro network
      rw [network, Ne, IPv4.lastOctet_eq_iff] at first
      simp only [UInt8.reduceToNat] at first
      omega
    · rintro broadcast
      rw [broadcast, Ne, IPv4.lastOctet_eq_iff, b.toNat_broadcast] at last
      simp only [UInt8.reduceToNat] at last
      omega
  · have room : 1 + 1 < Span.unitSize := by decide
    obtain ⟨a, ha⟩ := regular.reach 1 (Nat.lt_of_succ_lt room)
    exact ⟨a, 1, Nat.zero_le _, Nat.lt_of_succ_lt room, ha, regular.inner 1 a Nat.one_pos room ha⟩

lemma IPv6Block.size_le_unit {b : IPv6Block} (small : 120 ≤ b.length) : b.size ≤ 256 :=
  Nat.pow_le_pow_right (by decide) (by omega : 128 - b.length ≤ 8)

lemma Span.ofIPv6Block_eq {b : IPv6Block} (small : 120 ≤ b.length) :
    ofIPv6Block b = ⟨.v6 b.network, b.size, none⟩ := by
  rw [ofIPv6Block, Nat.max_eq_left small]
  rfl

lemma IPv6Block.size_eq_mul {b : IPv6Block} (h : b.length < 120) :
    b.size = 2 ^ (120 - b.length) * 256 := by
  rw [show (256 : ℕ) = 2 ^ 8 from rfl, ← pow_add, show 120 - b.length + 8 = 128 - b.length by omega]
  rfl

/-- The first address of a unit of an IPv6 block, made from the bits of the block and the index of
the unit. -/
theorem IPv6Block.toNat_unitStart {b : IPv6Block} (h : b.length < 120) {i : ℕ}
    (hi : i < 2 ^ (120 - b.length)) :
    (⟨b.network.bits ||| (BitVec.ofNat 128 i <<< 8)⟩ : IPv6).toNat = b.network.toNat + i * 256 := by
  have space := b.network_lt
  have offset : i * 256 < b.size := by
    rw [size_eq_mul h]
    exact Nat.mul_lt_mul_of_pos_right hi (by decide)
  have shifted : (BitVec.ofNat 128 i <<< 8).toNat = i * 256 := by
    have small : i < 2 ^ 128 := by omega
    rw [BitVec.toNat_shiftLeft, BitVec.toNat_ofNat, Nat.shiftLeft_eq, Nat.mod_eq_of_lt small]
    exact Nat.mod_eq_of_lt (by omega)
  obtain ⟨k, hk⟩ := b.size_dvd_network
  show (b.network.bits ||| (BitVec.ofNat 128 i <<< 8)).toNat = _
  rw [BitVec.toNat_or, shifted, show b.network.bits.toNat = b.size * k from hk, hk]
  exact (Nat.two_pow_add_eq_or_of_lt offset k).symm

theorem IPv6Block.always_drawUnit {b : IPv6Block} (h : b.length < 120) :
    Draw.Always (fun start => ∃ i < 2 ^ (120 - b.length),
      start.toNat = b.network.toNat + i * 256) b.drawUnit :=
  (Draw.always_below 16 (Nat.two_pow_pos _)).bind fun i hi =>
    Draw.always_pure ⟨i, hi, toNat_unitStart h hi⟩

/-- A block that is drawn from several times gives so many of its units. -/
theorem IPv6Block.always_drawUnits {b : IPv6Block} (h : b.length < 120) {count : ℕ} :
    Draw.Always (fun starts => starts.length = count ∧ ∀ start ∈ starts,
      ∃ i < 2 ^ (120 - b.length), start.toNat = b.network.toNat + i * 256) (b.drawUnits count) := by
  have each (u : IPv6Block) (hu : u ∈ List.replicate count b) :
      Draw.Always (fun start => ∃ i < 2 ^ (120 - b.length),
        start.toNat = b.network.toNat + i * 256) u.drawUnit := by
    rw [List.eq_of_mem_replicate hu]
    exact always_drawUnit h
  refine (Draw.always_mapM each).imp fun starts drawn => ⟨?_, fun start hstart => ?_⟩
  · rw [← drawn.length_eq, List.length_replicate]
  · obtain ⟨-, -, place⟩ := exists_of_mem_right drawn start hstart
    exact place

lemma IPv6Block.isUnitOf {b : IPv6Block} (h : b.length < 120) {start : IPv6} {i : ℕ}
    (hi : i < 2 ^ (120 - b.length)) (hstart : start.toNat = b.network.toNat + i * 256) :
    (Span.unit (.v6 start)).IsUnitOf (.v6 b) := by
  have bound : i * 256 + 256 ≤ b.size := by
    rw [size_eq_mul h, ← Nat.succ_mul]
    exact Nat.mul_le_mul_right _ hi
  have whole := b.network_lt
  have space : start.toNat + 256 ≤ 2 ^ 128 := by omega
  refine ⟨Span.regular_v6 le_rfl space, fun a ha => ?_, ?_⟩
  · obtain ⟨found, rfl, above, below⟩ := (Span.offers_v6 space).mp ha
    exact b.contains_iff.mpr (by omega)
  · exact ⟨.v6 start, (Span.offers_v6 space).mpr ⟨start, rfl, le_rfl, by omega⟩⟩

end EdgeScan
