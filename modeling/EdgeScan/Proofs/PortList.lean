import EdgeScan.Proofs.Distinct
import EdgeScan.Proofs.PortList.Grammar
import EdgeScan.Setup

/-!
What port lists can hold. Port 0 is out of range, as a port of its own and as the end of a range, so that
no list holds it.
-/
namespace EdgeScan.PortList

variable {item : List Char} {ports : List UInt16}

theorem Means.ne_zero (h : Means item ports) : ∀ p ∈ ports, p ≠ 0 := by
  cases h with
  | port h =>
    rw [List.forall_mem_singleton]
    exact h.2
  | @range _ _ _ _ first last _ _ _ _ hfirst _ _ whole =>
    rintro p hp rfl
    have mem : (0 : UInt16).toNat ∈ ports.map UInt16.toNat := List.mem_map_of_mem hp
    rw [whole, List.mem_range'_1] at mem
    -- 0 would have to be the first port of the range
    exact hfirst.2 (UInt16.toNat_inj.mp (Nat.le_zero.mp mem.1))

/-- No list of ports holds port 0. -/
theorem ne_zero_of_parse {s : String} (h : parse s = .ok ports) : ∀ p ∈ ports, p ≠ 0 := by
  obtain ⟨rows, read, h⟩ := bind_eq_ok_iff.mp h
  have each : ∀ row ∈ rows, ∀ p ∈ row, p ≠ 0 := forall_mem_of_mapM_eq_ok read
    fun _ _ hrow => (numberedPorts_eq_ok_iff.mp hrow).ne_zero
  intro p hp
  rw [← Except.ok.inj h, mem_distinct, List.mem_flatten] at hp
  obtain ⟨row, hrow, hp⟩ := hp
  exact each row hrow p hp

lemma ne_zero_of_parseAt {place : PortListPlace} {s : String} (h : parseAt place s = .ok ports) :
    ∀ p ∈ ports, p ≠ 0 :=
  ne_zero_of_parse (mapError_eq_ok_iff.mp h)

lemma ne_zero_of_load {files : Files} {path : String} (h : load files path = .ok ports) :
    ∀ p ∈ ports, p ≠ 0 := by
  obtain ⟨s, -, h⟩ := bind_eq_ok_iff.mp h
  exact ne_zero_of_parseAt h

end EdgeScan.PortList
