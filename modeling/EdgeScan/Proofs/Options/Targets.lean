import EdgeScan.Proofs.Options.Merging

/-!
Which blocks options scan. Targets that cannot be read or looked up are skipped, and what decides
whether the blocks of the WARP edge are scanned is what is left: they replace targets none of which
can be used, and never stand beside one that can.
-/
namespace EdgeScan

namespace Command

/-- The blocks that are written where they count: by flags, or in the configuration if there is no
such flag. -/
inductive Writes (c : Command) (config : Config) (b : Block) : Prop
  | flag {s : String} (given : s ∈ c.blocks) (read : Block.parse? (Text.trim s.toList) = some b)
  | configured (unset : c.blocks = []) (given : b ∈ config.blocks.getD [])

/-- The hosts that ports are to be tested on. -/
inductive NamesHost (c : Command) (config : Config) : String → Prop
  | flag {spec : String} {host ports : List Char} (given : spec ∈ c.hostPorts)
      (cut : Text.cutFirst? '=' spec.toList = some (host, ports)) :
      NamesHost c config (String.ofList (Text.trim host))
  | configured {host ports : String} (given : (host, ports) ∈ config.hostPorts.getD []) :
      NamesHost c config host

/-- Whether a target is given that can be used: a block, an endpoint that can be read or looked up,
or a host that stands for an address of an enabled family. -/
inductive HasUsableTarget (c : Command) (config : Config) (env : Environment)
    (families : Families) : Prop
  | block {b : Block} (written : c.Writes config b)
  | endpoint {s : String} {entry : List Char} (given : s ∈ config.endpoints.getD [] ++ c.endpoints)
      (listed : entry ∈ Endpoint.entries s.toList)
      (read : (Endpoint.ofEntry env.resolver 0 families entry).isOk = true)
  | host {host : String} (given : c.NamesHost config host)
      (found : (env.resolver.hostAddresses families host).1 ≠ [])

variable {c : Command} {config : Config} {env : Environment} {given flags : PortLists}
  {o : Options}

lemma mem_blocks_merged {b : Block} :
    b ∈ (c.merged config env given flags).blocks ↔ c.Writes config b := by
  change b ∈ (if c.blocks.isEmpty then config.blocks.getD [] else (Block.ofTexts c.blocks).1) ↔ _
  split
  · rename_i unset
    rw [List.isEmpty_iff] at unset
    refine ⟨fun given => .configured unset given, fun written => ?_⟩
    cases written with
    | flag given => exact absurd given (by simp [unset])
    | configured _ given => exact given
  · rename_i set_
    rw [List.isEmpty_iff] at set_
    simp only [Block.ofTexts, List.mem_filterMap, List.mem_map]
    constructor
    · rintro ⟨_, ⟨s, given, rfl⟩, read⟩
      exact .flag given read
    · intro written
      cases written with
      | @flag s given read => exact ⟨_, ⟨s, given, rfl⟩, read⟩
      | configured unset => exact absurd unset set_

lemma fst_of_configured {request : String × String} {h : String × List UInt16}
    (read : Config.readHostPorts request = .ok h) : h.1 = request.1 := by
  obtain ⟨ports, -, read⟩ := bind_eq_ok_iff.mp read
  exact congrArg Prod.fst (Except.ok.inj read).symm

lemma exists_cut_of_flag {spec : String} {h : String × List UInt16}
    (read : readHostPorts spec = .ok h) : ∃ host ports,
      Text.cutFirst? '=' spec.toList = some (host, ports) ∧
        h.1 = String.ofList (Text.trim host) := by
  unfold readHostPorts at read
  split at read
  · exact absurd read (by simp)
  · rename_i host ports cut
    obtain ⟨list, -, read⟩ := bind_eq_ok_iff.mp read
    exact ⟨host, ports, cut, congrArg Prod.fst (Except.ok.inj read).symm⟩

theorem namesHost_iff (hgiven : config.readPortLists = .ok given)
    (hflags : c.readPortLists env.files = .ok flags) {host : String} :
    c.NamesHost config host ↔ (∃ h ∈ given.hosts, h.1 = host) ∨ ∃ h ∈ flags.hosts, h.1 = host := by
  have configured := forall₂_of_mapM_eq_ok ((config.readPortLists_eq_ok_iff given).mp hgiven).2
  have flagged := forall₂_of_mapM_eq_ok ((c.readPortLists_eq_ok_iff flags env.files).mp hflags).2
  constructor
  · intro names
    cases names with
    | flag mem cut =>
      obtain ⟨h, hh, read⟩ := exists_of_mem_left flagged _ mem
      obtain ⟨host, ports, here, name⟩ := exists_cut_of_flag read
      rw [cut] at here
      cases here
      exact .inr ⟨h, hh, name⟩
    | configured mem =>
      obtain ⟨h, hh, read⟩ := exists_of_mem_left configured _ mem
      exact .inl ⟨h, hh, fst_of_configured read⟩
  · rintro (⟨h, hh, rfl⟩ | ⟨h, hh, rfl⟩)
    · obtain ⟨request, mem, read⟩ := exists_of_mem_right configured h hh
      rw [fst_of_configured read]
      exact .configured mem
    · obtain ⟨spec, mem, read⟩ := exists_of_mem_right flagged h hh
      obtain ⟨host, ports, cut, name⟩ := exists_cut_of_flag read
      rw [name]
      exact .flag mem cut

/-- The options that the sources amount to name no target exactly if none can be used. -/
theorem isUntargeted_merged_iff (hgiven : config.readPortLists = .ok given)
    (hflags : c.readPortLists env.files = .ok flags) :
    (c.merged config env given flags).isUntargeted = true ↔
      ¬c.HasUsableTarget config env (c.start config env).families := by
  let families := (c.start config env).families
  have blocks : (c.merged config env given flags).blocks = [] ↔ ∀ b, ¬c.Writes config b := by
    simp only [List.eq_nil_iff_forall_not_mem, mem_blocks_merged]
  have endpoints : (c.merged config env given flags).endpoints = [] ↔
      ∀ s ∈ config.endpoints.getD [] ++ c.endpoints, ∀ entry ∈ Endpoint.entries s.toList,
        (Endpoint.ofEntry env.resolver 0 families entry).isOk = false := by
    rw [List.forall_mem_append]
    exact List.append_eq_nil_iff.trans
      (and_congr Endpoint.ofLists_eq_nil_iff Endpoint.ofLists_eq_nil_iff)
  have hosts : (c.merged config env given flags).portTargets = [] ↔
      ∀ host, c.NamesHost config host → (env.resolver.hostAddresses families host).1 = [] := by
    change (PortTargets.insertHosts [] env.resolver families given.hosts).insertHosts env.resolver
      families flags.hosts = [] ↔ _
    rw [PortTargets.insertHosts_eq_nil_iff, PortTargets.insertHosts_eq_nil_iff]
    simp only [namesHost_iff hgiven hflags]
    constructor
    · rintro ⟨⟨-, configured⟩, flagged⟩ host (⟨h, hh, rfl⟩ | ⟨h, hh, rfl⟩)
      · exact configured h hh
      · exact flagged h hh
    · intro none
      exact ⟨⟨trivial, fun h hh => none h.1 (.inl ⟨h, hh, rfl⟩)⟩,
        fun h hh => none h.1 (.inr ⟨h, hh, rfl⟩)⟩
  simp only [Options.isUntargeted, Bool.and_eq_true, List.isEmpty_iff, blocks, endpoints, hosts]
  constructor
  · rintro ⟨⟨noBlock, noEndpoint⟩, noHost⟩ target
    cases target with
    | block written => exact noBlock _ written
    | endpoint given listed read =>
      exact Bool.false_ne_true ((noEndpoint _ given _ listed).symm.trans read)
    | host given found => exact found (noHost _ given)
  · intro none
    refine ⟨⟨fun b written => none (.block written), fun s given entry listed => ?_⟩,
      fun host given => ?_⟩
    · by_contra read
      exact none (.endpoint given listed (by simpa using read))
    · by_contra found
      exact none (.host given found)

/-- Options scan the blocks that were written if any target that is given can be used. Only if none
can, or none is given, they scan the blocks of the WARP edge. -/
theorem blocks_of_options (ok : c.options config env = .ok o) :
    (c.HasUsableTarget config env o.families → ∀ b, b ∈ o.blocks ↔ c.Writes config b) ∧
    (¬c.HasUsableTarget config env o.families → o.blocks = warpBlocks) := by
  obtain ⟨given, flags, hgiven, hflags, rfl⟩ := exists_portLists ok
  have untargeted := isUntargeted_merged_iff hgiven hflags
  rw [Options.withTargets_eq]
  refine ⟨fun target b => ?_, fun none => if_pos (untargeted.mpr none)⟩
  dsimp only
  rw [if_neg (untargeted.not.mpr (not_not.mpr target))]
  exact mem_blocks_merged

/-- A text that is no block is skipped beside one that is. -/
theorem blocks_of_options_skipped :
    let block : Block := .v4 ⟨⟨0x0A000000⟩, 30, by decide⟩
    let c : Command := { ipv6 := .off, blocks := ["nope", " 10.0.0.0/30 "] }
    let env : Environment := ⟨.none, .numeric, []⟩
    let o : Options := { useIPv6 := false, blocks := [block] }
    c.options {} env = .ok o ∧ c.HasUsableTarget {} env o.families ∧
      ∀ b, b ∈ o.blocks ↔ c.Writes {} b := by
  intro block c env o
  have ok : c.options {} env = .ok o := rfl
  have written : c.Writes {} block := .flag (List.mem_cons_of_mem _ List.mem_cons_self) rfl
  exact ⟨ok, .block written, (blocks_of_options ok).1 (.block written)⟩

/-- With nothing but a text that is no block, all blocks that are scanned are ones that were not
written. -/
theorem blocks_of_options_unreadable :
    let c : Command := { ipv6 := .off, blocks := ["nope"] }
    let env : Environment := ⟨.none, .numeric, []⟩
    ∃ o, c.options {} env = .ok o ∧ c.blocks ≠ [] ∧ o.blocks = warpBlocks ∧ o.blocks ≠ [] ∧
      ∀ b ∈ o.blocks, ¬c.Writes {} b := by
  intro c env
  refine ⟨{ useIPv6 := false, blocks := warpBlocks }, rfl, List.cons_ne_nil _ _, rfl,
    List.cons_ne_nil _ _, fun b _ written => ?_⟩
  cases written with
  | flag given read =>
    have unreadable : Block.parse? (Text.trim "nope".toList) = none := rfl
    rw [List.mem_singleton.mp given, unreadable] at read
    exact absurd read (by simp)
  | configured unset => exact absurd unset (List.cons_ne_nil _ _)

end Command

end EdgeScan
