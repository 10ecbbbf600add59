import EdgeScan.Proofs.Options.Merging
import EdgeScan.Proofs.PortList

/-!
The ports that options can hold. Whatever a command line and a configuration file give, there are
default ports, since an empty list changes nothing, and port 0 is neither among them nor among the
ports to be tested, since no port list holds it.
-/
namespace EdgeScan

/-- Port lists without port 0. -/
structure PortLists.Usable (lists : PortLists) : Prop where
  default : ∀ p ∈ lists.default, p ≠ 0
  hosts : ∀ h ∈ lists.hosts, ∀ p ∈ h.2, p ≠ 0

/-- Options with default ports, none of which is 0, and without a test of port 0. -/
structure Options.UsablePorts (o : Options) : Prop where
  some_ : o.defaultPorts ≠ []
  default : ∀ p ∈ o.defaultPorts, p ≠ 0
  targets : ∀ target ∈ o.portTargets, ∀ p ∈ target.2, p ≠ 0

namespace Config

variable {c : Config} {lists : PortLists}

lemma ne_zero_of_readHostPorts {request : String × String} {h : String × List UInt16}
    (read : readHostPorts request = .ok h) : ∀ p ∈ h.2, p ≠ 0 := by
  obtain ⟨ports, parsed, read⟩ := bind_eq_ok_iff.mp read
  rw [← Except.ok.inj read]
  exact PortList.ne_zero_of_parseAt parsed

theorem usable_of_readPortLists (h : c.readPortLists = .ok lists) : lists.Usable := by
  obtain ⟨default, hosts⟩ := c.readPortLists_eq_ok_iff lists |>.mp h
  refine ⟨?_, forall_mem_of_mapM_eq_ok hosts fun _ _ => ne_zero_of_readHostPorts⟩
  unfold readDefaultPorts at default
  split at default
  · rw [← Except.ok.inj default]
    exact fun p hp => absurd hp List.not_mem_nil
  · exact PortList.ne_zero_of_parseAt default

end Config

namespace Command

variable {c : Command} {config : Config} {env : Environment} {files : Files} {lists : PortLists}
  {o : Options}

lemma ne_zero_of_readHostPorts {spec : String} {h : String × List UInt16}
    (read : readHostPorts spec = .ok h) : ∀ p ∈ h.2, p ≠ 0 := by
  unfold readHostPorts at read
  split at read
  · exact absurd read (by simp)
  · obtain ⟨ports, parsed, read⟩ := bind_eq_ok_iff.mp read
    rw [← Except.ok.inj read]
    exact PortList.ne_zero_of_parseAt parsed

theorem usable_of_readPortLists (h : c.readPortLists files = .ok lists) : lists.Usable := by
  obtain ⟨default, hosts⟩ := c.readPortLists_eq_ok_iff lists files |>.mp h
  refine ⟨?_, forall_mem_of_mapM_eq_ok hosts fun _ _ => ne_zero_of_readHostPorts⟩
  unfold readDefaultPorts at default
  split at default
  · rw [← Except.ok.inj default]
    exact fun p hp => absurd hp List.not_mem_nil
  · split_ifs at default
    · exact PortList.ne_zero_of_load default
    · exact PortList.ne_zero_of_parseAt default

end Command

theorem Options.UsablePorts.of_lists {o o' : Options} {resolver : Resolver} {families : Families}
    {lists : PortLists} (before : o.UsablePorts) (usable : lists.Usable)
    (default : o'.defaultPorts = if lists.default.isEmpty then o.defaultPorts else lists.default)
    (targets : o'.portTargets = o.portTargets.insertHosts resolver families lists.hosts) :
    o'.UsablePorts := by
  refine ⟨?_, ?_, fun target ht => ?_⟩
  · rw [default]
    split
    · exact before.some_
    · rename_i given
      simpa using given
  · rw [default]
    split
    · exact before.default
    · exact usable.default
  · rw [targets] at ht
    rcases PortTargets.of_mem_insertHosts ht with old | ⟨host, hhost, same⟩
    · exact before.targets target old
    · exact same ▸ usable.hosts host hhost

namespace Command

variable {c : Command} {config : Config} {env : Environment} {o : Options}

lemma usablePorts_start (c : Command) (config : Config) (env : Environment) :
    (c.start config env).UsablePorts where
  some_ := List.cons_ne_nil _ _
  default p hp := by
    have open_ : warpPorts.contains 0 = false := rfl
    rintro rfl
    exact absurd (List.contains_iff_mem.mpr hp) (Bool.eq_false_iff.mp open_)
  targets _ ht := absurd ht List.not_mem_nil

/-- The ports of options that a command line and a configuration file amount to are usable. -/
theorem usablePorts_of_options (h : c.options config env = .ok o) : o.UsablePorts := by
  obtain ⟨given, flags, hgiven, hflags, rfl⟩ := exists_portLists h
  have configured : (config.applied env.resolver given (c.start config env)).UsablePorts :=
    (usablePorts_start c config env).of_lists (Config.usable_of_readPortLists hgiven) rfl rfl
  have merged : (c.merged config env given flags).UsablePorts :=
    configured.of_lists (usable_of_readPortLists hflags) rfl rfl
  rw [Options.withTargets_eq]
  exact ⟨merged.some_, merged.default, merged.targets⟩

end Command

end EdgeScan
