import EdgeScan.Proofs.Options.Merging

/-!
What a port on the command line overrides. The port of the configuration no longer shows in the
options, nor in the endpoints of the flags. But the endpoints of the configuration are read while
its own port is in force, so those that name no port still get that one.
-/
namespace EdgeScan

namespace Options

/-- The options with the same port on all endpoints. -/
def withEndpointPort (port : UInt16) (o : Options) : Options :=
  { o with endpoints := o.endpoints.map (Endpoint.withPort port) }

lemma isUntargeted_withEndpointPort (port : UInt16) (o : Options) :
    (o.withEndpointPort port).isUntargeted = o.isUntargeted := by
  simp [isUntargeted, withEndpointPort]

lemma complete_withEndpointPort (port : UInt16) (o : Options) :
    (o.withEndpointPort port).complete = o.complete.map (withEndpointPort port) := by
  have targets : (o.withEndpointPort port).withTargets = o.withTargets.withEndpointPort port := by
    rw [withTargets_eq, withTargets_eq, isUntargeted_withEndpointPort]
    rfl
  have valid : (o.withTargets.withEndpointPort port).validate = o.withTargets.validate := rfl
  unfold complete
  rw [targets, valid]
  cases o.withTargets.validate <;> rfl

end Options

namespace Command

variable {c : Command} {config : Config} {env : Environment} {p : UInt16}

lemma options_withEndpointPort (x : UInt16) :
    (c.options config env).map (Options.withEndpointPort x) = (do
      let given ← config.readPortLists
      let flags ← c.readPortLists env.files
      ((c.merged config env given flags).withEndpointPort x).complete.mapError .badOptions) := by
  rw [options_eq]
  cases config.readPortLists with
  | error e => rfl
  | ok given =>
    cases c.readPortLists env.files with
    | error e => rfl
    | ok flags =>
      simp only [Options.complete_withEndpointPort, bind, Except.bind]
      cases (c.merged config env given flags).complete <;> rfl

/-- Of the port of the configuration the flag leaves nothing but its mark on the configuration's
endpoints. -/
lemma merged_of_port (flag : c.port = some p) (v : Option UInt16) (given flags : PortLists) :
    c.merged { config with port := v } env given flags =
      { c.merged { config with port := none } env given flags with
        endpoints :=
          Endpoint.ofLists env.resolver (v.getD p) (c.start config env).families
            (config.endpoints.getD []) ++
          Endpoint.ofLists env.resolver p (c.start config env).families c.endpoints } := by
  unfold merged applied Config.applied start
  rw [flag]
  rfl

/-- Under an explicit port, configurations that differ in their ports only give the same error, or
the same options up to the ports of endpoints. The endpoints of the flags get the port of the flag,
those of the configuration its own port before that; and if these all name their ports, the options
are the same altogether. -/
theorem options_of_port (flag : c.port = some p) (v w : Option UInt16) :
    (∀ x, (c.options { config with port := v } env).map (Options.withEndpointPort x) =
      (c.options { config with port := w } env).map (Options.withEndpointPort x)) ∧
    (∀ o, c.options { config with port := v } env = .ok o → o.endpoints =
      Endpoint.ofLists env.resolver (v.getD p) o.families (config.endpoints.getD []) ++
        Endpoint.ofLists env.resolver p o.families c.endpoints) ∧
    ((∀ s ∈ config.endpoints.getD [], ∀ entry ∈ Endpoint.entries s.toList,
        Endpoint.namesPort entry) →
      c.options { config with port := v } env = c.options { config with port := w } env) := by
  refine ⟨fun x => ?upToPorts, fun o ok => ?endpoints, fun named => ?same⟩
  case upToPorts =>
    have same (given flags : PortLists) :
        (c.merged { config with port := v } env given flags).withEndpointPort x =
          (c.merged { config with port := w } env given flags).withEndpointPort x := by
      rw [merged_of_port flag v, merged_of_port flag w]
      simp only [Options.withEndpointPort, List.map_append,
        Endpoint.ofLists_withPort (p := v.getD p) (q := w.getD p)]
    simp only [options_withEndpointPort, same]
    rfl
  case endpoints =>
    obtain ⟨given, flags, -, -, rfl⟩ := exists_portLists ok
    rw [Options.withTargets_eq, merged_of_port flag]
    rfl
  case same =>
    have same (given flags : PortLists) : c.merged { config with port := v } env given flags =
        c.merged { config with port := w } env given flags := by
      rw [merged_of_port flag v, merged_of_port flag w,
        Endpoint.ofLists_of_namesPort (p := v.getD p) (q := w.getD p) named]
    simp only [options_eq, same]
    rfl

theorem options_of_port_named :
    let c : Command := { port := some 1111, endpoints := ["::1"] }
    let config : Config := { useIPv6 := some false, endpoints := some ["1.2.3.4:80, edge:500"] }
    let env : Environment := ⟨.none, .numeric, []⟩
    c.port = some 1111 ∧
      (∀ s ∈ config.endpoints.getD [], ∀ entry ∈ Endpoint.entries s.toList,
        Endpoint.namesPort entry) ∧
      c.options { config with port := some 5000 } env =
        c.options { config with port := none } env := by
  intro c config env
  have named : ∀ s ∈ config.endpoints.getD [], ∀ entry ∈ Endpoint.entries s.toList,
      Endpoint.namesPort entry := by decide +kernel
  exact ⟨rfl, named, (options_of_port rfl (some 5000) none).2.2 named⟩

theorem options_of_port_bare :
    let c : Command := { port := some 1111 }
    let config : Config := { useIPv6 := some false, endpoints := some ["1.2.3.4"] }
    let env : Environment := ⟨.none, .numeric, []⟩
    c.options { config with port := some 5000 } env ≠
      c.options { config with port := none } env := by
  intro c config env same
  have ports : (c.options { config with port := some 5000 } env).map Options.endpoints =
      .ok [.v4 ⟨0x01020304⟩ 5000] := rfl
  have ports' : (c.options { config with port := none } env).map Options.endpoints =
      .ok [.v4 ⟨0x01020304⟩ 1111] := rfl
  rw [same, ports'] at ports
  exact absurd (Except.ok.inj ports) (by decide)

end Command

end EdgeScan
