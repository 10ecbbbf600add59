import EdgeScan.Command.Options
import EdgeScan.Proofs.Target.Endpoints
import EdgeScan.Proofs.Target.Hosts
import EdgeScan.Proofs.Traversal

/-!
How a command line and a configuration file are merged. The only thing that can go wrong before the
options are checked is a port list without a meaning, and the reading of port lists does not look at
the options put together so far. So all of them can be read first, and then each source changes the
options in one step.
-/
namespace EdgeScan

/-- Port lists as they were read: the list for candidates without a port, empty if there is none,
and one for each host to be tested. -/
structure PortLists where
  default : List UInt16
  hosts : List (String × List UInt16)

namespace Config

/-- The port list of a host in a configuration. -/
def readHostPorts (request : String × String) : Except SetupError (String × List UInt16) :=
  return (request.1, ← PortList.parseAt (.configHost request.1) request.2)

def readDefaultPorts (c : Config) : Except SetupError (List UInt16) :=
  match c.defaultPorts with
  | none => .ok []
  | some s => PortList.parseAt .configDefault s

def readPortLists (c : Config) : Except SetupError PortLists :=
  return ⟨← c.readDefaultPorts, ← (c.hostPorts.getD []).mapM readHostPorts⟩

end Config

namespace Command

/-- The port list of a host on a command line. -/
def readHostPorts (spec : String) : Except SetupError (String × List UInt16) :=
  match Text.cutFirst? '=' spec.toList with
  | none => .error (.noHostPorts spec)
  | some (host, ports) =>
    return (String.ofList (Text.trim host),
      ← PortList.parseAt (.hostArgument spec) (String.ofList ports))

def readDefaultPorts (c : Command) (files : Files) : Except SetupError (List UInt16) :=
  match c.ports with
  | none => .ok []
  | some spec =>
    if files.isFile spec then PortList.load files spec else PortList.parseAt (.argument spec) spec

def readPortLists (c : Command) (files : Files) : Except SetupError PortLists :=
  return ⟨← c.readDefaultPorts files, ← c.hostPorts.mapM readHostPorts⟩

end Command

/-! What each source changes -/

namespace Options

/-- The limit that is in force after one that may have been given; no time at all lifts it. -/
def limitAfter (given old : Option Duration) : Option Duration :=
  match given with
  | none => old
  | some limit => if limit.nanos = 0 then none else some limit

variable (o : Options) (resolver : Resolver)

lemma addAllEndpoints_eq (lists : List String) :
    o.addAllEndpoints resolver lists =
      { o with endpoints := o.endpoints ++ Endpoint.ofLists resolver o.port o.families lists } := by
  induction lists generalizing o with
  | nil => simp [addAllEndpoints, Endpoint.ofLists]
  | cons s lists ih =>
    rw [addAllEndpoints, List.foldl_cons, ← addAllEndpoints, ih]
    simp [addEndpoints, Endpoint.ofLists, families]

lemma foldl_testPorts (ports : List UInt16) (addresses : List Address) :
    addresses.foldl (fun o a => o.testPorts a ports) o =
      { o with portTargets := addresses.foldl (fun t a => t.insert a ports) o.portTargets } := by
  induction addresses generalizing o with
  | nil => rfl
  | cons a addresses ih => exact ih (o.testPorts a ports)

lemma foldl_testHostPorts (hosts : List (String × List UInt16)) :
    hosts.foldl (fun o h => o.testHostPorts resolver h.1 h.2) o =
      { o with portTargets := o.portTargets.insertHosts resolver o.families hosts } := by
  induction hosts generalizing o with
  | nil => rfl
  | cons h hosts ih =>
    rw [List.foldl_cons, ih, testHostPorts, foldl_testPorts]
    rfl

lemma foldlM_testHostPorts {α ε : Type} (read : α → Except ε (String × List UInt16)) (l : List α) :
    (l.foldlM (fun o a => do let h ← read a; return o.testHostPorts resolver h.1 h.2) o) = (do
      let hosts ← l.mapM read
      return { o with
        portTargets := o.portTargets.insertHosts resolver o.families hosts }) := by
  rw [foldlM_eq_mapM_bind read fun o h => testHostPorts o resolver h.1 h.2]
  simp only [foldl_testHostPorts]

lemma setDefaultPorts_eq (ports : List UInt16) :
    o.setDefaultPorts ports =
      { o with defaultPorts := if ports.isEmpty then o.defaultPorts else ports } := by
  unfold setDefaultPorts
  split <;> rfl

lemma withTargets_eq :
    o.withTargets = { o with blocks := if o.isUntargeted then warpBlocks else o.blocks } := by
  unfold withTargets
  split <;> rfl

variable {o}

lemma eq_withTargets {o' : Options} (h : o.complete = .ok o') : o' = o.withTargets := by
  obtain ⟨_, _, same⟩ := bind_eq_ok_iff.mp h
  exact (Except.ok.inj same).symm

end Options

namespace Config

variable (c : Config) (resolver : Resolver) (lists : PortLists) (o : Options)

/-- The options after a configuration whose port lists were read. -/
def applied (c : Config) (resolver : Resolver) (lists : PortLists) (o : Options) : Options :=
  let port := c.port.getD o.port
  { c.applyValues o with
    port
    defaultPorts := if lists.default.isEmpty then o.defaultPorts else lists.default
    blocks := c.blocks.getD o.blocks
    endpoints :=
      o.endpoints ++ Endpoint.ofLists resolver port o.families (c.endpoints.getD [])
    portTargets := o.portTargets.insertHosts resolver o.families lists.hosts
    scanTimeout := Options.limitAfter c.scanTimeout o.scanTimeout }

lemma readPortLists_eq_ok_iff : c.readPortLists = .ok lists ↔
    c.readDefaultPorts = .ok lists.default ∧
      (c.hostPorts.getD []).mapM readHostPorts = .ok lists.hosts := by
  obtain ⟨default, hosts⟩ := lists
  simp [readPortLists, bind_eq_ok_iff, pure, Except.pure]

lemma applyDefaultPorts_eq :
    c.applyDefaultPorts o = (do return o.setDefaultPorts (← c.readDefaultPorts)) := by
  unfold applyDefaultPorts readDefaultPorts
  cases c.defaultPorts <;> rfl

lemma applyTargets_eq :
    c.applyTargets resolver o = (do
      let hosts ← (c.hostPorts.getD []).mapM readHostPorts
      return { o with
        blocks := c.blocks.getD o.blocks
        endpoints :=
          o.endpoints ++ Endpoint.ofLists resolver o.port o.families (c.endpoints.getD [])
        portTargets := o.portTargets.insertHosts resolver o.families hosts }) := by
  have step : applyHostPorts resolver = fun o request => do
      let h ← readHostPorts request
      return o.testHostPorts resolver h.1 h.2 := by
    funext o request
    simp only [applyHostPorts, readHostPorts, bind_assoc, pure_bind]
  rw [applyTargets, step, Options.foldlM_testHostPorts, Options.addAllEndpoints_eq]
  rfl

theorem apply_eq :
    c.apply resolver o = (do return c.applied resolver (← c.readPortLists) o) := by
  simp only [apply, applyDefaultPorts_eq, applyTargets_eq, readPortLists, bind_assoc, pure_bind,
    Options.setDefaultPorts_eq]
  unfold applyTimeLimit applied
  cases c.scanTimeout <;> rfl

end Config

namespace Command

variable (c : Command) (config : Config) (env : Environment) (lists : PortLists) (o : Options)

/-- The options after the flags, when their port lists were read. -/
def applied (c : Command) (config : Config) (env : Environment) (lists : PortLists) (o : Options) :
    Options :=
  let port := c.port.getD o.port
  { c.applyValues config o with
    port
    defaultPorts := if lists.default.isEmpty then o.defaultPorts else lists.default
    blocks := if c.blocks.isEmpty then o.blocks else (Block.ofTexts c.blocks).1
    endpoints := o.endpoints ++ Endpoint.ofLists env.resolver port o.families c.endpoints
    portTargets := o.portTargets.insertHosts env.resolver o.families lists.hosts
    scanTimeout := Options.limitAfter c.scanTimeout o.scanTimeout }

lemma readPortLists_eq_ok_iff (files : Files) : c.readPortLists files = .ok lists ↔
    c.readDefaultPorts files = .ok lists.default ∧
      c.hostPorts.mapM readHostPorts = .ok lists.hosts := by
  obtain ⟨default, hosts⟩ := lists
  simp [readPortLists, bind_eq_ok_iff, pure, Except.pure]

lemma applyPorts_eq (files : Files) :
    c.applyPorts files o = (do return o.setDefaultPorts (← c.readDefaultPorts files)) := by
  unfold applyPorts readDefaultPorts
  cases c.ports with
  | none => rfl
  | some spec => by_cases isFile : files.isFile spec <;> simp [isFile]

lemma applyBlocks_eq :
    c.applyBlocks o =
      { o with blocks := if c.blocks.isEmpty then o.blocks else (Block.ofTexts c.blocks).1 } := by
  unfold applyBlocks
  split <;> rfl

lemma foldlM_applyHostPorts (resolver : Resolver) (specs : List String) :
    specs.foldlM (applyHostPorts resolver) o = (do
      let hosts ← specs.mapM readHostPorts
      return { o with
        portTargets := o.portTargets.insertHosts resolver o.families hosts }) := by
  have step : applyHostPorts resolver = fun o spec => do
      let h ← readHostPorts spec
      return o.testHostPorts resolver h.1 h.2 := by
    funext o spec
    unfold applyHostPorts readHostPorts
    cases Text.cutFirst? '=' spec.toList with
    | none => rfl
    | some cut => simp only [bind_assoc, pure_bind]
  rw [step, Options.foldlM_testHostPorts]

theorem apply_eq :
    c.apply config env o =
      (do return c.applied config env (← c.readPortLists env.files) o) := by
  simp only [apply, applyPorts_eq, foldlM_applyHostPorts, readPortLists, bind_assoc, pure_bind,
    Options.setDefaultPorts_eq, applyBlocks_eq, Options.addAllEndpoints_eq]
  unfold applyTimeLimit applied
  cases c.scanTimeout <;> rfl

/-- The options that both sources amount to, before they are checked. -/
def merged (given flags : PortLists) : Options :=
  c.applied config env flags (config.applied env.resolver given (c.start config env))

/-- The port lists of both sources are read first; everything else is decided by the options that
they amount to. -/
theorem options_eq :
    c.options config env = (do
      let given ← config.readPortLists
      let flags ← c.readPortLists env.files
      (c.merged config env given flags).complete.mapError .badOptions) := by
  simp only [options, Config.apply_eq, apply_eq, bind_assoc, pure_bind, merged]

variable {c config env o}

lemma exists_portLists (h : c.options config env = .ok o) :
    ∃ given flags, config.readPortLists = .ok given ∧ c.readPortLists env.files = .ok flags ∧
      o = (c.merged config env given flags).withTargets := by
  rw [options_eq, bind_eq_ok_iff] at h
  obtain ⟨given, hgiven, h⟩ := h
  obtain ⟨flags, hflags, h⟩ := bind_eq_ok_iff.mp h
  exact ⟨given, flags, hgiven, hflags, Options.eq_withTargets (mapError_eq_ok_iff.mp h)⟩

end Command

end EdgeScan
