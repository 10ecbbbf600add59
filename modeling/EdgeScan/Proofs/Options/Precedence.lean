import EdgeScan.Proofs.Options.Merging

/-!
Which of the two sources decides an option. A flag goes before the configuration file, and that
before the default values; each of the three keys is decided on its own.
-/
namespace EdgeScan

/-- The position that a switch is set to on a command line, if any. -/
def Switch.position? : Switch → Option Bool
  | auto => none
  | on => some true
  | off => some false

lemma Switch.resolve_eq (s : Switch) (configured : Option Bool) (found : Bool) :
    s.resolve configured found = (s.position? <|> configured).getD found := by
  cases s <;> rfl

/-- Options in which flags go before the configuration, and the configuration before the default
values. -/
structure Options.Follows (o : Options) (c : Command) (config : Config) (env : Environment) :
    Prop where
  useIPv4 : o.useIPv4 = (c.ipv4.position? <|> config.useIPv4).getD true
  useIPv6 : o.useIPv6 = (c.ipv6.position? <|> config.useIPv6).getD env.reachesIPv6
  /-- The endpoints of the configuration, followed by those of the flags. Those without a port get
  the one in force when they are read, and those of the configuration are read before the flags. -/
  endpoints : o.endpoints =
    Endpoint.ofLists env.resolver ((config.port <|> c.port).getD ({} : Options).port) o.families
      (config.endpoints.getD []) ++
    Endpoint.ofLists env.resolver o.port o.families c.endpoints
  workers : o.workers = (c.workers <|> config.workers).getD ({} : Options).workers
  samplesPerUnit : o.samplesPerUnit =
    (c.samplesPerUnit <|> config.samplesPerUnit).getD ({} : Options).samplesPerUnit
  icmpFilter : o.icmpFilter = (c.icmp || config.icmpFilter.getD ({} : Options).icmpFilter)
  tcpFilter : o.tcpFilter = (!c.noTcp && config.tcpFilter.getD ({} : Options).tcpFilter)
  tcpFilterPort :
    o.tcpFilterPort = (c.tcpPort <|> config.tcpFilterPort).getD ({} : Options).tcpFilterPort
  icmpLimit : o.icmpLimit = (c.icmpLimit <|> config.icmpLimit).getD ({} : Options).icmpLimit
  tcpLimit : o.tcpLimit = (c.tcpLimit <|> config.tcpLimit).getD ({} : Options).tcpLimit
  connectTimeout : o.connectTimeout =
    (c.connectTimeout <|> config.connectTimeout).getD ({} : Options).connectTimeout
  handshakeTimeout : o.handshakeTimeout =
    (c.handshakeTimeout <|> config.handshakeTimeout).getD ({} : Options).handshakeTimeout
  capacity : o.capacity = (c.capacity <|> config.capacity).getD ({} : Options).capacity
  stopAfter : o.stopAfter = (c.stopAfter <|> config.stopAfter).getD ({} : Options).stopAfter
  /-- No time at all stands for no limit, wherever it is given. -/
  scanTimeout :
    o.scanTimeout = (c.scanTimeout <|> config.scanTimeout).filter fun limit => limit.nanos ≠ 0
  port : o.port = (c.port <|> config.port).getD ({} : Options).port
  defaultPorts : ∃ flag given, c.readDefaultPorts env.files = .ok flag ∧
    config.readDefaultPorts = .ok given ∧
    [flag, given, warpPorts].find? (fun ports => !ports.isEmpty) = some o.defaultPorts
  credentials : ∀ k, o.credentials = some k ↔
    (c.privateKey <|> config.privateKey) = some k.privateKey ∧
    (c.peerPublicKey <|> config.peerPublicKey) = some k.peerPublicKey ∧
    (c.presharedKey <|> config.presharedKey) = k.presharedKey

lemma Credentials.ofKeys?_eq_some_iff {privateKey peerPublicKey presharedKey : Option String}
    {k : Credentials} : ofKeys? privateKey peerPublicKey presharedKey = some k ↔
      privateKey = some k.privateKey ∧ peerPublicKey = some k.peerPublicKey ∧
        presharedKey = k.presharedKey := by
  rcases k with ⟨_, _, _⟩
  cases privateKey <;> cases peerPublicKey <;> simp [ofKeys?]

lemma getD_getD {α : Type} (flag given : Option α) (d : α) :
    flag.getD (given.getD d) = (flag <|> given).getD d := by
  cases flag <;> rfl

namespace Command

variable {c : Command} {config : Config} {env : Environment} {o : Options}

lemma credentials?_or (c : Command) (config : Config) :
    (c.credentials? config <|> config.credentials?) = c.credentials? config := by
  cases given : config.credentials? with
  | none => cases c.credentials? config <;> rfl
  | some k =>
    obtain ⟨privateKey, peerPublicKey, -⟩ := Credentials.ofKeys?_eq_some_iff.mp given
    rw [credentials?, privateKey, peerPublicKey]
    cases c.privateKey <;> cases c.peerPublicKey <;> rfl

lemma merged_port (given flags : PortLists) :
    (c.merged config env given flags).port =
      (c.port <|> config.port).getD ({} : Options).port := by
  change c.port.getD (config.port.getD (c.port.getD defaultHandshakePort)) = _
  cases c.port <;> rfl

/-- The endpoints of the configuration are read before its port gives way to the flag's. -/
lemma merged_endpoints (given flags : PortLists) :
    (c.merged config env given flags).endpoints =
      Endpoint.ofLists env.resolver ((config.port <|> c.port).getD ({} : Options).port)
        (c.start config env).families (config.endpoints.getD []) ++
      Endpoint.ofLists env.resolver (c.merged config env given flags).port
        (c.start config env).families c.endpoints := by
  rw [← getD_getD]
  rfl

lemma merged_credentials (given flags : PortLists) :
    (c.merged config env given flags).credentials = c.credentials? config := by
  rw [← credentials?_or]
  change (c.credentials? config <|> config.credentials?.orElse fun _ => none) = _
  cases config.credentials? <;> rfl

lemma find?_isEmpty (flag given : List UInt16) :
    [flag, given, warpPorts].find? (fun ports => !ports.isEmpty) =
      some (if flag.isEmpty then if given.isEmpty then warpPorts else given else flag) := by
  cases flag <;> cases given <;> rfl

lemma limitAfter_limitAfter (flag given : Option Duration) :
    Options.limitAfter flag (Options.limitAfter given none) =
      (flag <|> given).filter fun limit => limit.nanos ≠ 0 := by
  cases flag <;> cases given <;> simp [Options.limitAfter, Option.filter]

/-- Every option is the flag's if the flag is given, else the configuration's, else the default. -/
theorem follows_of_options (h : c.options config env = .ok o) : o.Follows c config env := by
  obtain ⟨given, flags, hgiven, hflags, rfl⟩ := exists_portLists h
  rw [Config.readPortLists_eq_ok_iff] at hgiven
  rw [readPortLists_eq_ok_iff] at hflags
  rw [Options.withTargets_eq]
  constructor
  case useIPv4 => exact Switch.resolve_eq ..
  case useIPv6 => exact Switch.resolve_eq ..
  case endpoints => exact merged_endpoints given flags
  case workers => exact getD_getD ..
  case samplesPerUnit => exact getD_getD ..
  case icmpFilter => rfl
  case tcpFilter => rfl
  case tcpFilterPort => exact getD_getD ..
  case icmpLimit => exact getD_getD ..
  case tcpLimit => exact getD_getD ..
  case connectTimeout => exact getD_getD ..
  case handshakeTimeout => exact getD_getD ..
  case capacity => exact getD_getD ..
  case stopAfter => exact getD_getD ..
  case scanTimeout => exact limitAfter_limitAfter ..
  case port => exact merged_port given flags
  case defaultPorts => exact ⟨_, _, hflags.1, hgiven.1, find?_isEmpty ..⟩
  case credentials =>
    intro k
    rw [merged_credentials]
    exact Credentials.ofKeys?_eq_some_iff

theorem follows_of_options_split_keys :
    let c : Command := {
      port := some 1111, workers := some 7, scanTimeout := some .zero,
      privateKey := some "private" }
    let config : Config := {
      endpoints := some ["1.2.3.4, ::1"], workers := some 9, samplesPerUnit := some 3,
      scanTimeout := some (.ofMillis 5000), peerPublicKey := some "peer" }
    let env : Environment := ⟨.none, .numeric, []⟩
    let o : Options := {
      useIPv6 := false, endpoints := [.v4 ⟨0x01020304⟩ 1111, .v6 ⟨1⟩ 1111 0], workers := 7,
      samplesPerUnit := 3, port := 1111, credentials := some ⟨"private", "peer", none⟩ }
    c.options config env = .ok o ∧ o.Follows c config env := by
  intro c config env o
  have ok : c.options config env = .ok o := rfl
  exact ⟨ok, follows_of_options ok⟩

end Command

end EdgeScan
