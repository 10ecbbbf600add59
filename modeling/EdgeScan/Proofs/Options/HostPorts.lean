import EdgeScan.Proofs.Options.Merging

/-!
Ports asked for on a host. Only addresses that the host stands for get the ports, and only a host that
is a literal address stands for one of a family that is not enabled.
-/
namespace EdgeScan.Options

variable {o : Options} {resolver : Resolver} {host : String} {ports : List UInt16} {b : Address}

lemma testHostPorts_eq : o.testHostPorts resolver host ports =
    { o with
      portTargets := (resolver.hostAddresses o.families host).1.foldl
        (fun targets a => targets.insert a ports) o.portTargets } :=
  foldl_testPorts o ports _

/-- The ports asked for on an address change if the host stands for it, and else they do not. -/
theorem lookup_testHostPorts (b : Address) :
    (o.testHostPorts resolver host ports).portTargets.lookup b =
      if b ∈ (resolver.hostAddresses o.families host).1 then some ports
      else o.portTargets.lookup b := by
  rw [testHostPorts_eq, PortTargets.lookup_foldl_insert]

theorem allows_or_literal {families : Families}
    (h : b ∈ (resolver.hostAddresses families host).1) :
    families.allows b ∨ Address.parse? host.toList = some b := by
  cases literal : Address.parse? host.toList with
  | none => exact .inl ((Resolver.mem_hostAddresses_of_name literal).mp h).1
  | some a =>
    rw [Resolver.hostAddresses_of_literal literal, List.mem_singleton] at h
    exact .inr (h ▸ rfl)

/-- A host stands for each of its addresses once: for itself if it is a literal address, and otherwise
for exactly those of enabled families that the resolver knows for it. Asking for ports on a host changes
the ports of these addresses and nothing else in the options; so an address of a family that is not
enabled gets ports only where the host is that address. -/
theorem testHostPorts_spec (resolver : Resolver) (host : String) :
    (∀ families, let addresses := (resolver.hostAddresses families host).1
      addresses.Nodup ∧
        (∀ a, Address.parse? host.toList = some a → addresses = [a]) ∧
        (Address.parse? host.toList = none → ∀ a, a ∈ addresses ↔ families.allows a = true ∧
          ∃ found, resolver.addresses host = .ok found ∧ a ∈ found.map HostAddress.address)) ∧
    ∀ (o : Options) (ports : List UInt16), let o' := o.testHostPorts resolver host ports
      o' = { o with portTargets := o'.portTargets } ∧
        (∀ b, o'.portTargets.lookup b =
          if b ∈ (resolver.hostAddresses o.families host).1 then some ports
          else o.portTargets.lookup b) ∧
        (∀ b, o'.portTargets.lookup b ≠ o.portTargets.lookup b →
          o.families.allows b ∨ Address.parse? host.toList = some b) ∧
        (o.portTargets.IsOrdered → o'.portTargets.IsOrdered) := by
  refine ⟨fun families => ⟨Resolver.nodup_hostAddresses _ _ _, fun a literal => ?_,
    fun name a => Resolver.mem_hostAddresses_of_name name⟩, fun o ports => ⟨?_,
    lookup_testHostPorts, fun b changed => ?_, fun ordered => ?_⟩⟩
  · exact Resolver.hostAddresses_of_literal literal
  · rw [testHostPorts_eq]
  · have stands : b ∈ (resolver.hostAddresses o.families host).1 := by
      by_contra other
      exact changed (by rw [lookup_testHostPorts, if_neg other])
    exact allows_or_literal stands
  · rw [testHostPorts_eq]
    exact ordered.foldl_insert _

/-- With IPv6 only, an IPv4 address in loose notation is no address of its host, and the ports that were
asked for before are still asked for. -/
theorem testHostPorts_spec_loose :
    let o : Options := { useIPv4 := false, portTargets := [(.v4 ⟨0x0a000001⟩, [443])] }
    Address.parse? "10.1".toList = none ∧
      ((Resolver.numeric.hostAddresses o.families "10.1").1 = []) ∧
      (o.testHostPorts .numeric "10.1" [80]).portTargets.lookup (.v4 ⟨0x0a000001⟩) = some [443] ∧
      (o.testHostPorts .numeric "10.1" [80]).portTargets.IsOrdered := by
  intro o
  have name : Address.parse? "10.1".toList = none := by decide +kernel
  obtain ⟨stands, asks⟩ := testHostPorts_spec .numeric "10.1"
  obtain ⟨-, -, exactly⟩ := stands o.families
  obtain ⟨-, lookup, -, ordered⟩ := asks o [80]
  have none : (Resolver.numeric.hostAddresses o.families "10.1").1 = [] := by decide +kernel
  refine ⟨name, none, ?_, ordered (List.pairwise_singleton _ _)⟩
  rw [lookup, none]
  rfl

/-- With IPv6 only, the literal address 10.0.0.1 is an address of its host all the same, and it gets the
ports. -/
theorem not_allows_literal :
    let o : Options := { useIPv4 := false }
    let a : Address := .v4 ⟨0x0a000001⟩
    o.families.allows a = false ∧
      a ∈ (Resolver.numeric.hostAddresses o.families "10.0.0.1").1 ∧
      (o.testHostPorts .numeric "10.0.0.1" [80]).portTargets.lookup a = some [80] := by
  decide +kernel

end EdgeScan.Options
