import EdgeScan.Address.Block
import Mathlib.Algebra.Order.Ring.Nat
import Mathlib.Tactic.Ring

/-!
Blocks as runs of numbers: a block holds the `size` numbers from its network address on, which is a
multiple of the size. Among them are the addresses that a scan may use.
-/
namespace EdgeScan

theorem div_beq_div_iff {s n a : ℕ} (hs : 0 < s) :
    (n / s == a / s) = true ↔ a / s * s ≤ n ∧ n < a / s * s + s := by
  rw [beq_iff_eq, Nat.div_eq_iff hs]
  omega

lemma div_mul_add_le {s a total : ℕ} (hdvd : s ∣ total) (ha : a < total) :
    a / s * s + s ≤ total := by
  obtain ⟨k, rfl⟩ := hdvd
  have hk : a / s < k := Nat.div_lt_of_lt_mul ha
  calc a / s * s + s
    _ = s * (a / s + 1) := by ring
    _ ≤ s * k := Nat.mul_le_mul_left s hk

namespace IPv4

lemma toNat_lt (ip : IPv4) : ip.toNat < 2 ^ 32 := ip.bits.toNat_lt

lemma toNat_ofNat {n : ℕ} (h : n < 2 ^ 32) : (ofNat n).toNat = n := Nat.mod_eq_of_lt h

lemma toNat_inj {a b : IPv4} : a.toNat = b.toNat ↔ a = b := by
  cases a
  cases b
  simp [toNat, UInt32.toNat_inj]

lemma ofNat_toNat (ip : IPv4) : ofNat ip.toNat = ip := toNat_inj.mp (toNat_ofNat ip.toNat_lt)

lemma lastOctet_eq_iff {ip : IPv4} {octet : UInt8} :
    ip.lastOctet = octet ↔ ip.toNat % 256 = octet.toNat := by
  rw [← UInt8.toNat_inj]
  exact Iff.rfl

end IPv4

namespace IPv6

lemma toNat_lt (ip : IPv6) : ip.toNat < 2 ^ 128 := ip.bits.isLt

lemma toNat_ofNat {n : ℕ} (h : n < 2 ^ 128) : (ofNat n).toNat = n := Nat.mod_eq_of_lt h

lemma toNat_inj {a b : IPv6} : a.toNat = b.toNat ↔ a = b := by
  cases a
  cases b
  simp [toNat, BitVec.toNat_inj]

end IPv6

namespace IPv4Block

variable (b : IPv4Block) {ip : IPv4}

lemma size_pos : 0 < b.size := Nat.two_pow_pos _

lemma size_dvd : b.size ∣ 2 ^ 32 := pow_dvd_pow 2 (Nat.sub_le _ _)

lemma network_add_size_le : b.address.toNat / b.size * b.size + b.size ≤ 2 ^ 32 :=
  div_mul_add_le b.size_dvd b.address.toNat_lt

lemma toNat_network : b.network.toNat = b.address.toNat / b.size * b.size := by
  have h := b.network_add_size_le
  have hs := b.size_pos
  exact IPv4.toNat_ofNat (by omega)

lemma toNat_broadcast : b.broadcast.toNat = b.network.toNat + (b.size - 1) := by
  have h := b.network_add_size_le
  have hs := b.size_pos
  rw [toNat_network]
  exact IPv4.toNat_ofNat (by omega)

lemma network_lt : b.network.toNat + b.size ≤ 2 ^ 32 := by
  rw [toNat_network]
  exact b.network_add_size_le

lemma size_dvd_network : b.size ∣ b.network.toNat := by
  rw [toNat_network]
  exact Nat.dvd_mul_left _ _

theorem contains_iff : b.contains ip = true ↔
    b.network.toNat ≤ ip.toNat ∧ ip.toNat < b.network.toNat + b.size := by
  rw [toNat_network]
  exact div_beq_div_iff b.size_pos

end IPv4Block

namespace IPv6Block

variable (b : IPv6Block) {ip : IPv6}

lemma size_pos : 0 < b.size := Nat.two_pow_pos _

lemma size_dvd : b.size ∣ 2 ^ 128 := pow_dvd_pow 2 (Nat.sub_le _ _)

lemma network_add_size_le : b.address.toNat / b.size * b.size + b.size ≤ 2 ^ 128 :=
  div_mul_add_le b.size_dvd b.address.toNat_lt

lemma toNat_network : b.network.toNat = b.address.toNat / b.size * b.size := by
  have h := b.network_add_size_le
  have hs := b.size_pos
  exact IPv6.toNat_ofNat (by omega)

lemma network_lt : b.network.toNat + b.size ≤ 2 ^ 128 := by
  rw [toNat_network]
  exact b.network_add_size_le

lemma size_dvd_network : b.size ∣ b.network.toNat := by
  rw [toNat_network]
  exact Nat.dvd_mul_left _ _

lemma contains_iff : b.contains ip = true ↔
    b.network.toNat ≤ ip.toNat ∧ ip.toNat < b.network.toNat + b.size := by
  rw [toNat_network]
  exact div_beq_div_iff b.size_pos

end IPv6Block

/-- The addresses of an IPv4 block that a scan may use: they do not end in 0 or 255, and if the
block has length 30 or less they are neither its network nor its broadcast address. -/
def IPv4Block.Admits (b : IPv4Block) (ip : IPv4) : Prop :=
  b.contains ip = true ∧ ip.lastOctet ≠ 0 ∧ ip.lastOctet ≠ 255 ∧
    (b.length ≤ 30 → ip ≠ b.network ∧ ip ≠ b.broadcast)

/-- The addresses of a block that a scan may use; those of an IPv6 block are all of them. -/
def Block.Admits : Block → Address → Prop
  | .v4 b, .v4 ip => b.Admits ip
  | .v6 b, .v6 ip => b.contains ip = true
  | _, _ => False

/-- Whether a block is a single IPv4 address that a scan may not use. -/
def Block.isBarren : Block → Bool
  | .v4 b => b.length == 32 && (b.address.lastOctet == 0 || b.address.lastOctet == 255)
  | .v6 _ => false

namespace Block

variable {b : Block} {a : Address}

end Block

namespace IPv4Block

variable {b : IPv4Block} {ip : IPv4}

theorem toNat_ofNat_network_add {x : ℕ} (hx : x < b.size) :
    (IPv4.ofNat (b.network.toNat + x)).toNat = b.network.toNat + x := by
  have h := b.network_lt
  exact IPv4.toNat_ofNat (by omega)

theorem admits_network_add {x : ℕ} (hx : x < b.size) (first : (b.network.toNat + x) % 256 ≠ 0)
    (last : (b.network.toNat + x) % 256 ≠ 255)
    (inside : b.length ≤ 30 → 0 < x ∧ x + 1 < b.size) :
    b.Admits (IPv4.ofNat (b.network.toNat + x)) := by
  have toNat := toNat_ofNat_network_add hx
  refine ⟨b.contains_iff.mpr ?_, ?_, ?_, fun short => ⟨?_, ?_⟩⟩
  · omega
  · rwa [Ne, IPv4.lastOctet_eq_iff, toNat]
  · rwa [Ne, IPv4.lastOctet_eq_iff, toNat]
  · have := inside short
    rw [Ne, ← IPv4.toNat_inj, toNat]
    omega
  · have := inside short
    rw [Ne, ← IPv4.toNat_inj, toNat, b.toNat_broadcast]
    omega

end IPv4Block

end EdgeScan
