import EdgeScan.Command.Basic
import EdgeScan.Config

/-!
The options that a command line and a configuration file amount to. Flags go before the
configuration, and the configuration before the defaults; each of the three keys is decided on its
own.
-/

namespace EdgeScan

/-- What the program finds around it: files, a resolver, and the addresses of its own host. -/
structure Environment where
  files : Files
  resolver : Resolver
  localAddresses : List Address

/-- Whether the host has an IPv6 address that can reach public edges. -/
def Environment.reachesIPv6 (env : Environment) : Bool :=
  env.localAddresses.any fun
    | .v4 _ => false
    | .v6 ip => ip.isGlobalUnicast

namespace Command

/-- The options that everything else is applied to: the families, and the port. -/
def start (c : Command) (config : Config) (env : Environment) : Options :=
  let o : Options := {
    useIPv4 := c.ipv4.resolve config.useIPv4 true
    useIPv6 := c.ipv6.resolve config.useIPv6 env.reachesIPv6 }
  { o with port := c.port.getD o.port }

def applyPorts (c : Command) (files : Files) (o : Options) : Except SetupError Options :=
  match c.ports with
  | none => .ok o
  | some spec =>
    if files.isFile spec then return o.setDefaultPorts (← PortList.load files spec)
    else return o.setDefaultPorts (← PortList.parseAt (.argument spec) spec)

def applyHostPorts (resolver : Resolver) (o : Options) (spec : String) :
    Except SetupError Options :=
  match Text.cutFirst? '=' spec.toList with
  | none => .error (.noHostPorts spec)
  | some (host, ports) =>
    return o.testHostPorts resolver (String.ofList (Text.trim host))
      (← PortList.parseAt (.hostArgument spec) (String.ofList ports))

def applyBlocks (c : Command) (o : Options) : Options :=
  if c.blocks.isEmpty then o else { o with blocks := (Block.ofTexts c.blocks).1 }

/-- The key material given by flags and configuration together. -/
def credentials? (c : Command) (config : Config) : Option Credentials :=
  Credentials.ofKeys? (c.privateKey <|> config.privateKey)
    (c.peerPublicKey <|> config.peerPublicKey) (c.presharedKey <|> config.presharedKey)

def applyValues (c : Command) (config : Config) (o : Options) : Options :=
  { o with
    icmpFilter := c.icmp || o.icmpFilter
    tcpFilter := !c.noTcp && o.tcpFilter
    tcpFilterPort := c.tcpPort.getD o.tcpFilterPort
    icmpLimit := c.icmpLimit.getD o.icmpLimit
    tcpLimit := c.tcpLimit.getD o.tcpLimit
    connectTimeout := c.connectTimeout.getD o.connectTimeout
    handshakeTimeout := c.handshakeTimeout.getD o.handshakeTimeout
    workers := c.workers.getD o.workers
    samplesPerUnit := c.samplesPerUnit.getD o.samplesPerUnit
    capacity := c.capacity.getD o.capacity
    stopAfter := c.stopAfter.getD o.stopAfter
    credentials := c.credentials? config <|> o.credentials }

def applyTimeLimit (c : Command) (o : Options) : Options :=
  match c.scanTimeout with
  | none => o
  | some limit => o.limitTime limit

def apply (c : Command) (config : Config) (env : Environment) (o : Options) :
    Except SetupError Options := do
  let o := { o with port := c.port.getD o.port }
  let o ← c.applyPorts env.files o
  let o := (c.applyBlocks o).addAllEndpoints env.resolver c.endpoints
  let o ← c.hostPorts.foldlM (applyHostPorts env.resolver) o
  return c.applyTimeLimit (c.applyValues config o)

/-- The options that a command line and a configuration amount to. -/
def options (c : Command) (config : Config) (env : Environment) : Except SetupError Options := do
  let o ← config.apply env.resolver (c.start config env)
  let o ← c.apply config env o
  o.complete.mapError .badOptions

end Command

end EdgeScan
