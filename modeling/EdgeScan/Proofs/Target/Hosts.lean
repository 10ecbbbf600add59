import EdgeScan.Proofs.Address.Block
import EdgeScan.Proofs.Distinct
import EdgeScan.Target.Hosts
import Mathlib.Data.Finset.Card

/-!
The targets of a dedicated scan. A host that is a literal address stands for it whatever family it is
of, any other for the addresses of enabled families that it is found to have. An address is a target as
soon as one host stands for it, with ports that were given with a host. The endpoints to be tested are
the pairs of an address and a port that are asked for, each of them once.
-/
namespace EdgeScan

lemma Address.rank_inj {a b : Address} : a.rank = b.rank ↔ a = b := by
  refine ⟨fun same => ?_, congrArg rank⟩
  cases a with
  | v4 x =>
    have := x.toNat_lt
    cases b with
    | v4 y => exact congrArg v4 (IPv4.toNat_inj.mp same)
    | v6 y =>
      simp only [rank] at same
      omega
  | v6 x =>
    cases b with
    | v4 y =>
      have := y.toNat_lt
      simp only [rank] at same
      omega
    | v6 y => exact congrArg v6 (IPv6.toNat_inj.mp (Nat.add_left_cancel same))

/-! Addresses of a host -/

namespace Resolver

variable {resolver : Resolver} {families : Families} {host : String} {a : Address}

lemma hostAddresses_of_literal (literal : Address.parse? host.toList = some a) :
    (resolver.hostAddresses families host).1 = [a] := by
  rw [hostAddresses, literal]

/-- A host that is no literal address stands for the addresses of enabled families that the resolver
knows for it, each once. -/
theorem hostAddresses_of_name (name : Address.parse? host.toList = none) :
    (resolver.hostAddresses families host).1 =
      distinct (((resolver.addresses host).toOption.getD []).map HostAddress.address
        |>.filter families.allows) := by
  rw [hostAddresses, name]
  cases resolver.addresses host with
  | error reason => rfl
  | ok found =>
    simp only [Except.toOption, Option.getD_some]
    cases distinct ((found.map HostAddress.address).filter families.allows) <;> rfl

lemma mem_hostAddresses_of_name (name : Address.parse? host.toList = none) :
    a ∈ (resolver.hostAddresses families host).1 ↔ families.allows a = true ∧
      ∃ found, resolver.addresses host = .ok found ∧ a ∈ found.map HostAddress.address := by
  rw [hostAddresses_of_name name, mem_distinct, List.mem_filter, and_comm]
  refine and_congr_right fun _ => ?_
  cases resolver.addresses host <;> simp [Except.toOption]

lemma nodup_hostAddresses (resolver : Resolver) (families : Families) (host : String) :
    (resolver.hostAddresses families host).1.Nodup := by
  cases literal : Address.parse? host.toList with
  | none =>
    rw [hostAddresses_of_name literal]
    exact nodup_distinct _
  | some a =>
    rw [hostAddresses_of_literal literal]
    exact List.nodup_singleton a

end Resolver

lemma Endpoint.new_inj {a b : Address} {p q : UInt16} : new a p = new b q ↔ a = b ∧ p = q := by
  refine ⟨fun same => ⟨?_, ?_⟩, fun ⟨ha, hp⟩ => ha ▸ hp ▸ rfl⟩
  · simpa using congrArg address same
  · simpa using congrArg port same

namespace PortTargets

variable {targets : PortTargets} {a : Address} {p : UInt16} {ports : List UInt16}

/-! Asking for ports -/

lemma mem_of_mem_insert {x : Address × List UInt16} (h : x ∈ targets.insert a ports) :
    x = (a, ports) ∨ x ∈ targets := by
  induction targets with
  | nil => exact .inl (List.mem_singleton.mp h)
  | cons target rest ih =>
    obtain ⟨b, old⟩ := target
    unfold insert at h
    split_ifs at h
    · exact (List.mem_cons.mp h).imp_right (List.mem_cons_of_mem _)
    · exact List.mem_cons.mp h
    · rcases List.mem_cons.mp h with rfl | h
      · exact .inr List.mem_cons_self
      · exact (ih h).imp_right (List.mem_cons_of_mem _)

lemma insert_ne_nil : targets.insert a ports ≠ [] := by
  cases targets with
  | nil => exact List.cons_ne_nil _ _
  | cons target rest =>
    unfold insert
    split_ifs <;> exact List.cons_ne_nil _ _

/-- Whether the targets are in the order of their addresses, each address once. -/
def IsOrdered (targets : PortTargets) : Prop :=
  targets.Pairwise fun x y => x.1.rank < y.1.rank

theorem IsOrdered.insert (h : targets.IsOrdered) : (targets.insert a ports).IsOrdered := by
  induction targets with
  | nil => exact List.pairwise_singleton _ _
  | cons target rest ih =>
    obtain ⟨b, old⟩ := target
    obtain ⟨first, others⟩ := List.pairwise_cons.mp h
    unfold PortTargets.insert
    split_ifs with same less
    · exact List.pairwise_cons.mpr ⟨fun x hx => same ▸ first x hx, others⟩
    · refine List.pairwise_cons.mpr ⟨fun x hx => ?_, h⟩
      rcases List.mem_cons.mp hx with rfl | hx
      · exact less
      · exact less.trans (first x hx)
    · refine List.pairwise_cons.mpr ⟨fun x hx => ?_, ih others⟩
      rcases mem_of_mem_insert hx with rfl | hx
      · have other : a.rank ≠ b.rank := Address.rank_inj.not.mpr same
        dsimp only
        omega
      · exact first x hx

lemma lookup_cons (a b : Address) (ports : List UInt16) (rest : PortTargets) :
    List.lookup b ((a, ports) :: rest) = if b = a then some ports else rest.lookup b := by
  rw [List.lookup_cons]
  by_cases same : b = a
  · simp [same]
  · have other : (b == a) = false := by simpa using same
    simp [other, same]

/-- Asking for ports on an address changes nothing on any other. -/
theorem lookup_insert (targets : PortTargets) (a b : Address) (ports : List UInt16) :
    (targets.insert a ports).lookup b = if b = a then some ports else targets.lookup b := by
  induction targets with
  | nil => exact lookup_cons a b ports []
  | cons target rest ih =>
    obtain ⟨c, old⟩ := target
    rw [PortTargets.insert]
    by_cases same : a = c
    · subst same
      rw [if_pos rfl, lookup_cons, lookup_cons]
      by_cases asked : b = a <;> simp [asked]
    · by_cases less : a.rank < c.rank
      · rw [if_neg same, if_pos less, lookup_cons]
      · rw [if_neg same, if_neg less, lookup_cons, lookup_cons, ih]
        by_cases asked : b = a
        · subst asked
          simp [same]
        · simp [asked]

theorem IsOrdered.foldl_insert (h : targets.IsOrdered) (addresses : List Address) :
    (addresses.foldl (fun targets a => targets.insert a ports) targets).IsOrdered := by
  induction addresses generalizing targets with
  | nil => exact h
  | cons a addresses ih => exact ih h.insert

theorem lookup_foldl_insert (targets : PortTargets) (addresses : List Address) (b : Address)
    (ports : List UInt16) :
    (addresses.foldl (fun targets a => targets.insert a ports) targets).lookup b =
      if b ∈ addresses then some ports else targets.lookup b := by
  induction addresses generalizing targets with
  | nil => simp
  | cons a addresses ih =>
    rw [List.foldl_cons, ih, lookup_insert]
    by_cases first : b = a <;> simp [first]

/-- Asks for the given ports on every usable address of each host. -/
def insertHosts (targets : PortTargets) (resolver : Resolver) (families : Families)
    (hosts : List (String × List UInt16)) : PortTargets :=
  hosts.foldl (fun targets (host, ports) =>
    (resolver.hostAddresses families host).1.foldl (fun targets a => targets.insert a ports)
      targets) targets

lemma foldl_insert_eq_nil_iff {addresses : List Address} :
    addresses.foldl (fun targets a => targets.insert a ports) targets = [] ↔
      targets = [] ∧ addresses = [] := by
  induction addresses generalizing targets with
  | nil => simp
  | cons a addresses ih => simp [ih, insert_ne_nil]

lemma of_mem_foldl_insert {addresses : List Address} {x : Address × List UInt16}
    (h : x ∈ addresses.foldl (fun targets a => targets.insert a ports) targets) :
    x ∈ targets ∨ x.2 = ports := by
  induction addresses generalizing targets with
  | nil => exact .inl h
  | cons a addresses ih =>
    rcases ih h with here | same
    · exact (mem_of_mem_insert here).symm.imp_right (congrArg Prod.snd)
    · exact .inr same

variable {resolver : Resolver} {families : Families} {hosts : List (String × List UInt16)}

theorem insertHosts_eq_nil_iff : targets.insertHosts resolver families hosts = [] ↔
    targets = [] ∧ ∀ h ∈ hosts, (resolver.hostAddresses families h.1).1 = [] := by
  induction hosts generalizing targets with
  | nil => simp [insertHosts]
  | cons h hosts ih =>
    rw [insertHosts, List.foldl_cons, ← insertHosts, ih, foldl_insert_eq_nil_iff,
      List.forall_mem_cons, and_assoc]

theorem of_mem_insertHosts {x : Address × List UInt16}
    (h : x ∈ targets.insertHosts resolver families hosts) :
    x ∈ targets ∨ ∃ host ∈ hosts, x.2 = host.2 := by
  induction hosts generalizing targets with
  | nil => exact .inl h
  | cons host hosts ih =>
    rw [insertHosts, List.foldl_cons, ← insertHosts] at h
    rcases ih h with here | ⟨other, hother, same⟩
    · exact (of_mem_foldl_insert here).imp_right fun same => ⟨host, List.mem_cons_self, same⟩
    · exact .inr ⟨other, List.mem_cons_of_mem _ hother, same⟩

/-! Endpoints -/

/-- The pairs of an address and a port that are asked for. -/
def pairs (targets : PortTargets) : List (Address × UInt16) :=
  targets.flatMap fun (a, ports) => ports.map (a, ·)

lemma endpoints_eq :
    targets.endpoints = (distinct targets.pairs).map fun pair => .new pair.1 pair.2 := by
  rw [← distinct_map]
  · simp only [endpoints, pairs, List.map_flatMap, List.map_map]
    rfl
  · intro x _ y _ same
    exact Prod.ext_iff.mpr (Endpoint.new_inj.mp same)

lemma mem_endpoints {e : Endpoint} : e ∈ targets.endpoints ↔
    ∃ a ports, (a, ports) ∈ targets ∧ ∃ p ∈ ports, e = .new a p := by
  simp [endpoints, mem_distinct, eq_comm]

lemma nodup_endpoints (targets : PortTargets) : targets.endpoints.Nodup :=
  nodup_distinct _

/-- Among the endpoints asked for, each is counted once, however often its pair is asked for. -/
theorem countP_endpoints (targets : PortTargets) (q : Endpoint → Bool) :
    targets.endpoints.countP q =
      (targets.pairs.toFinset.filter fun pair => q (.new pair.1 pair.2)).card := by
  have same : ((distinct targets.pairs).filter fun pair => q (.new pair.1 pair.2)).toFinset =
      targets.pairs.toFinset.filter fun pair => q (.new pair.1 pair.2) := by
    ext pair
    simp [mem_distinct]
  rw [endpoints_eq, List.countP_map, List.countP_eq_length_filter, ← same,
    List.toFinset_card_of_nodup ((nodup_distinct _).filter _)]
  rfl

lemma length_endpoints (targets : PortTargets) :
    targets.endpoints.length = targets.pairs.toFinset.card := by
  simpa using targets.countP_endpoints fun _ => true

end PortTargets

end EdgeScan
