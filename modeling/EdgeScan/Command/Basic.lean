import EdgeScan.Duration

/-!
What a command line asks for.
-/

namespace EdgeScan

inductive Switch
  | auto
  | on
  | off
deriving DecidableEq, Repr

/-- The position of a switch. One left to the program is as configured, or else as found out by
the program itself. -/
def Switch.resolve (s : Switch) (configured : Option Bool) (found : Bool) : Bool :=
  match s with
  | auto => configured.getD found
  | on => true
  | off => false

/-- What a command line asks for. What it does not mention is left to the configuration file. -/
structure Command where
  config : Option String := none
  blocks : List String := []
  endpoints : List String := []
  /-- Hosts and the ports to be tested on them, as `HOST=PORTS`. -/
  hostPorts : List String := []
  /-- A port list, or the path of a file with one. -/
  ports : Option String := none
  port : Option UInt16 := none
  ipv4 : Switch := .auto
  ipv6 : Switch := .auto
  icmp : Bool := false
  noTcp : Bool := false
  tcpPort : Option UInt16 := none
  icmpLimit : Option Duration := none
  tcpLimit : Option Duration := none
  connectTimeout : Option Duration := none
  handshakeTimeout : Option Duration := none
  workers : Option Nat := none
  samplesPerUnit : Option Nat := none
  capacity : Option Nat := none
  stopAfter : Option Nat := none
  scanTimeout : Option Duration := none
  privateKey : Option String := none
  peerPublicKey : Option String := none
  presharedKey : Option String := none
  output : Option String := none
  verbose : Bool := false
deriving Repr

end EdgeScan
