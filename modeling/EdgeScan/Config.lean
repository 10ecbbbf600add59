import EdgeScan.Json.Values
import EdgeScan.Options.Assembly
import EdgeScan.Setup

/-!
The configuration file of a scan: a JSON document with the fields of options, all of them optional.
Durations are given in milliseconds and ports as port lists.
-/

namespace EdgeScan

structure Config where
  useIPv4 : Option Bool := none
  useIPv6 : Option Bool := none
  blocks : Option (List Block) := none
  endpoints : Option (List String) := none
  /-- Hosts and the ports to be tested on them, in the order of hosts. -/
  hostPorts : Option (List (String × String)) := none
  workers : Option Nat := none
  samplesPerUnit : Option Nat := none
  icmpFilter : Option Bool := none
  tcpFilter : Option Bool := none
  tcpFilterPort : Option UInt16 := none
  icmpLimit : Option Duration := none
  tcpLimit : Option Duration := none
  connectTimeout : Option Duration := none
  handshakeTimeout : Option Duration := none
  capacity : Option Nat := none
  stopAfter : Option Nat := none
  scanTimeout : Option Duration := none
  port : Option UInt16 := none
  defaultPorts : Option String := none
  privateKey : Option String := none
  peerPublicKey : Option String := none
  presharedKey : Option String := none
deriving Repr

namespace Config

/-! Reading -/

/-- Inserts a member into members in the order of their names, in place of an old one. -/
def insertMember (members : List (String × String)) (name value : String) :
    List (String × String) :=
  match members with
  | [] => [(name, value)]
  | (other, old) :: rest =>
    if name = other then (name, value) :: rest
    else if name < other then (name, value) :: (other, old) :: rest
    else (other, old) :: insertMember rest name value

def blockValue : JsonReader Block := do
  let s ← JsonReader.text "IPv4 or IPv6 network address"
  match Block.parse? s.toList with
  | some b => return b
  | none => JsonReader.fail (.badText Block.badTextReason)

def textValue : JsonReader String := JsonReader.text "a string"

def portValue : JsonReader UInt16 := return (← JsonReader.natural 65535 "u16").toUInt16

def countValue : JsonReader Nat := JsonReader.natural JsonReader.greatest "usize"

def millisValue : JsonReader Duration :=
  return .ofMillis (← JsonReader.natural JsonReader.greatest "u64")

def field {α : Type} (name : String) (value : JsonReader α) (set : Config → Option α → Config) :
    JsonReader.FieldReader Config where
  name := name
  read c := return set c (← JsonReader.optional value)

def fields : List (JsonReader.FieldReader Config) :=
  [field "use_ipv4" .boolean fun c v => { c with useIPv4 := v },
   field "use_ipv6" .boolean fun c v => { c with useIPv6 := v },
   field "cidr_list" (.list blockValue) fun c v => { c with blocks := v },
   field "custom_endpoints" (.list textValue) fun c v => { c with endpoints := v },
   field "test_ports" (.object textValue insertMember []) fun c v => { c with hostPorts := v },
   field "concurrent_scanners" countValue fun c v => { c with workers := v },
   field "bucket_size" countValue fun c v => { c with samplesPerUnit := v },
   field "icmp_ping" .boolean fun c v => { c with icmpFilter := v },
   field "tcp_ping" .boolean fun c v => { c with tcpFilter := v },
   field "tcp_ping_port" portValue fun c v => { c with tcpFilterPort := v },
   field "icmp_ping_filter_rtt_ms" millisValue fun c v => { c with icmpLimit := v },
   field "tcp_ping_filter_rtt_ms" millisValue fun c v => { c with tcpLimit := v },
   field "connection_timeout_ms" millisValue fun c v => { c with connectTimeout := v },
   field "handshake_timeout_ms" millisValue fun c v => { c with handshakeTimeout := v },
   field "ip_queue_size" countValue fun c v => { c with capacity := v },
   field "stop_on_first_good_ips" countValue fun c v => { c with stopAfter := v },
   field "scan_timeout_ms" millisValue fun c v => { c with scanTimeout := v },
   field "port" portValue fun c v => { c with port := v },
   field "default_scan_ports" textValue fun c v => { c with defaultPorts := v },
   field "private_key" textValue fun c v => { c with privateKey := v },
   field "peer_public_key" textValue fun c v => { c with peerPublicKey := v },
   field "preshared_key" textValue fun c v => { c with presharedKey := v }]

def parse (s : String) : Except JsonError Config :=
  JsonReader.document (JsonReader.record "struct ScanConfig" fields {}) s

def load (files : Files) (path : String) : Except SetupError Config := do
  let s ← (files.text path).mapError (.unreadableConfig path)
  (parse s).mapError (.badConfig path)

/-! Applying -/

/-- The key material, if both mandatory keys are given. -/
def credentials? (c : Config) : Option Credentials :=
  Credentials.ofKeys? c.privateKey c.peerPublicKey c.presharedKey

def applyDefaultPorts (c : Config) (o : Options) : Except SetupError Options :=
  match c.defaultPorts with
  | none => .ok o
  | some s => return o.setDefaultPorts (← PortList.parseAt .configDefault s)

def applyHostPorts (resolver : Resolver) (o : Options) (request : String × String) :
    Except SetupError Options :=
  return o.testHostPorts resolver request.1
    (← PortList.parseAt (.configHost request.1) request.2)

/-- The options with the targets of the configuration. Blocks replace those given before, all else
is added. -/
def applyTargets (c : Config) (resolver : Resolver) (o : Options) : Except SetupError Options :=
  let o := { o with blocks := c.blocks.getD o.blocks }
  let o := o.addAllEndpoints resolver (c.endpoints.getD [])
  (c.hostPorts.getD []).foldlM (applyHostPorts resolver) o

def applyValues (c : Config) (o : Options) : Options :=
  { o with
    workers := c.workers.getD o.workers
    samplesPerUnit := c.samplesPerUnit.getD o.samplesPerUnit
    icmpFilter := c.icmpFilter.getD o.icmpFilter
    tcpFilter := c.tcpFilter.getD o.tcpFilter
    tcpFilterPort := c.tcpFilterPort.getD o.tcpFilterPort
    icmpLimit := c.icmpLimit.getD o.icmpLimit
    tcpLimit := c.tcpLimit.getD o.tcpLimit
    connectTimeout := c.connectTimeout.getD o.connectTimeout
    handshakeTimeout := c.handshakeTimeout.getD o.handshakeTimeout
    capacity := c.capacity.getD o.capacity
    stopAfter := c.stopAfter.getD o.stopAfter
    credentials := c.credentials?.orElse fun _ => o.credentials }

def applyTimeLimit (c : Config) (o : Options) : Options :=
  match c.scanTimeout with
  | none => o
  | some limit => o.limitTime limit

/-- The options with everything that the configuration gives, except for the address families.
Those have to be settled before, because looking up hosts depends on them. -/
def apply (c : Config) (resolver : Resolver) (o : Options) : Except SetupError Options := do
  let o := { o with port := c.port.getD o.port }
  let o ← c.applyDefaultPorts o
  let o ← c.applyTargets resolver o
  return c.applyTimeLimit (c.applyValues o)

end Config

end EdgeScan
