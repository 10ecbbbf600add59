import EdgeScan.Credentials
import EdgeScan.Duration
import EdgeScan.Error
import EdgeScan.Target.Blocks
import EdgeScan.Target.Hosts

/-!
The options of a scan, their defaults, and the conditions a scan relies on.
-/

namespace EdgeScan

/-- What to scan and how. The default values are those of a scan that is told nothing. -/
structure Options where
  useIPv4 : Bool := true
  useIPv6 : Bool := true
  blocks : List Block := []
  endpoints : List Endpoint := []
  /-- If not empty, exactly these ports are tested, and nothing else. -/
  portTargets : PortTargets := []
  workers : Nat := 100
  /-- The number of addresses sampled from each unit. -/
  samplesPerUnit : Nat := 5
  icmpFilter : Bool := false
  tcpFilter : Bool := true
  tcpFilterPort : UInt16 := 443
  icmpLimit : Duration := .ofMillis 400
  tcpLimit : Duration := .ofMillis 300
  connectTimeout : Duration := .ofMillis 1000
  handshakeTimeout : Duration := .ofMillis 1000
  /-- The number of results kept; 0 keeps them all. -/
  capacity : Nat := 0xFFFF
  /-- The number of results at which the scan stops early; 0 for never. -/
  stopAfter : Nat := 0
  scanTimeout : Option Duration := none
  /-- The handshake port of candidates without one; 0 picks from `defaultPorts`. -/
  port : UInt16 := defaultHandshakePort
  defaultPorts : List UInt16 := warpPorts
  credentials : Option Credentials := none
deriving Repr

namespace Options

def families (o : Options) : Families := ⟨o.useIPv4, o.useIPv6⟩

def isPortScan (o : Options) : Bool := !o.portTargets.isEmpty

/-- Checks the conditions that a scan relies on, in a fixed order. -/
def validate (o : Options) : Except ScanError Unit :=
  if !o.useIPv4 && !o.useIPv6 then .error .noFamilies
  else if o.workers = 0 then .error (.invalidOption "concurrent_scanners" "must be at least 1")
  else if o.samplesPerUnit = 0 then .error (.invalidOption "bucket_size" "must be at least 1")
  else if o.connectTimeout.nanos = 0 then
    .error (.invalidOption "connection_timeout" "must be non-zero")
  else if o.handshakeTimeout.nanos = 0 then
    .error (.invalidOption "handshake_timeout" "must be non-zero")
  else if o.port = 0 ∧ o.defaultPorts = [] then
    .error (.invalidOption "default_scan_ports" "empty while port is 0")
  else .ok ()

/-- The longest that probes on their way may keep a cancelled scan alive. -/
def cancellationLatency (o : Options) : Duration :=
  o.connectTimeout.longer o.handshakeTimeout

end Options

end EdgeScan
