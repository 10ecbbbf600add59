import EdgeScan.Command.Basic
import EdgeScan.Text.Numeral
import EdgeScan.Text.Split

/-!
The flags of the command line: their names, the values they take, and what they ask for.
-/

namespace EdgeScan

inductive ValueError
  | empty
  | notChoice (choices : List String)
  | invalid (reason : String)
deriving DecidableEq, Repr

inductive UsageError
  | unknownArgument (argument : String)
  | missingValue (flag : String)
  | badValue (flag value : String) (error : ValueError)
  | repeatedFlag (flag : String)
  | unwantedValue (flag value : String)
deriving DecidableEq, Repr

namespace UsageError

def summary : UsageError → String
  | unknownArgument argument => s!"unexpected argument '{argument}' found"
  | missingValue flag => s!"a value is required for '{flag}' but none was supplied"
  | badValue flag _ .empty => s!"a value is required for '{flag}' but none was supplied"
  | badValue flag value (.notChoice choices) =>
    s!"invalid value '{value}' for '{flag}'\n  [possible values: " ++ ", ".intercalate choices ++ "]"
  | badValue flag value (.invalid reason) => s!"invalid value '{value}' for '{flag}': {reason}"
  | repeatedFlag flag => s!"the argument '{flag}' cannot be used multiple times"
  | unwantedValue flag value => s!"unexpected value '{value}' for '{flag}' found; no more were expected"

end UsageError

namespace FlagValue

def path (s : String) : Except ValueError String :=
  if s.isEmpty then .error .empty else .ok s

def natural (s : String) : Except ValueError Nat :=
  (Text.numeral 0xFFFFFFFFFFFFFFFF s.toList).mapError fun e => .invalid e.message

def millis (s : String) : Except ValueError Duration :=
  (natural s).map Duration.ofMillis

def port (s : String) : Except ValueError UInt16 :=
  let signed : Except Text.NumeralError Int :=
    match s.toList with
    | ['-'] => .error .invalidDigit
    | '-' :: digits => (Text.appendDigits 0x8000000000000000 0 digits).map fun n => -(n : Int)
    | digits => (Text.numeral 0x7FFFFFFFFFFFFFFF digits).map fun n => (n : Int)
  match signed with
  | .error e => .error (.invalid e.message)
  | .ok n =>
    if 0 ≤ n ∧ n ≤ 65535 then .ok n.toNat.toUInt16
    else .error (.invalid s!"{n} is not in 0..=65535")

def switches : List (String × Switch) := [("auto", .auto), ("on", .on), ("off", .off)]

def switch (s : String) : Except ValueError Switch :=
  match switches.lookup s with
  | some position => .ok position
  | none => .error (.notChoice (switches.map Prod.fst))

end FlagValue

/-- What a flag does. -/
inductive Flag.Action
  /-- It takes no value. -/
  | mark (update : Command → Command)
  /-- It takes one value. -/
  | take (placeholder : String) (read : String → Except ValueError (Command → Command))
  /-- It takes one value each time it is given. -/
  | collect (placeholder : String) (update : String → Command → Command)
  | showHelp
  | showVersion

structure Flag where
  name : String
  letter : Option Char := none
  help : String := ""
  action : Flag.Action

namespace Flag

/-- The word that stands for the value of a flag, if it takes one. -/
def placeholder? (f : Flag) : Option String :=
  match f.action with
  | .take placeholder _ | .collect placeholder _ => some placeholder
  | .mark _ | .showHelp | .showVersion => none

def form (f : Flag) : String :=
  match f.placeholder? with
  | some placeholder => s!"--{f.name} <{placeholder}>"
  | none => s!"--{f.name}"

def taking {α : Type} (name placeholder : String) (read : String → Except ValueError α)
    (set : Command → α → Command) (help : String := "") : Flag where
  name := name
  help := help
  action := .take placeholder fun s => (read s).map fun a c => set c a

def switchNote : String := "[default: auto] [possible values: auto, on, off]"

/-- The flags of the command line, in the order of the help text. -/
def all : List Flag :=
  [taking "config" "CONFIG" FlagValue.path (fun c v => { c with config := some v })
    "JSON config file; explicit flags override its values",
   { name := "cidr"
     help := "CIDR range to sample (repeatable or comma-separated). Defaults to the WARP ranges"
     action := .collect "CIDR" fun s c =>
      { c with blocks := c.blocks ++ (Text.pieces ',' s.toList).map String.ofList } },
   { name := "endpoint"
     help := "Explicit endpoint: ip:port, ip, host:port or host (repeatable)"
     action := .collect "ENDPOINT" fun s c => { c with endpoints := c.endpoints ++ [s] } },
   { name := "test-ports"
     help := "Dedicated port scan of one host, as HOST=PORTS (e.g. 162.159.192.1=500,2408-2410)"
     action := .collect "TEST_PORTS" fun s c => { c with hostPorts := c.hostPorts ++ [s] } },
   taking "ports" "PORTS" .ok (fun c v => { c with ports := some v })
    "Default handshake ports for sampled candidates: a port list or a path to a ports file",
   taking "port" "PORT" FlagValue.port (fun c v => { c with port := some v })
    "Handshake port for sampled candidates; 0 picks a random default port per candidate",
   taking "ipv4" "IPV4" FlagValue.switch (fun c v => { c with ipv4 := v }) switchNote,
   taking "ipv6" "IPV6" FlagValue.switch (fun c v => { c with ipv6 := v })
    ("`auto` enables IPv6 only when a global IPv6 address is configured locally " ++ switchNote),
   { name := "icmp"
     help := "Enable the ICMP filter stage (needs raw or ping socket permissions)"
     action := .mark fun c => { c with icmp := true } },
   { name := "no-tcp"
     help := "Disable the TCP filter stage"
     action := .mark fun c => { c with noTcp := true } },
   taking "tcp-port" "TCP_PORT" FlagValue.port fun c v => { c with tcpPort := some v },
   taking "icmp-rtt-ms" "ICMP_RTT_MS" FlagValue.millis fun c v => { c with icmpLimit := some v },
   taking "tcp-rtt-ms" "TCP_RTT_MS" FlagValue.millis fun c v => { c with tcpLimit := some v },
   taking "timeout-ms" "TIMEOUT_MS" FlagValue.millis
    (fun c v => { c with connectTimeout := some v })
    "ICMP/TCP connect timeout in milliseconds",
   taking "handshake-timeout-ms" "HANDSHAKE_TIMEOUT_MS" FlagValue.millis fun c v =>
    { c with handshakeTimeout := some v },
   taking "concurrency" "CONCURRENCY" FlagValue.natural (fun c v => { c with workers := some v })
    "Workers per pipeline stage",
   taking "bucket-size" "BUCKET_SIZE" FlagValue.natural fun c v =>
    { c with samplesPerUnit := some v },
   taking "queue-size" "QUEUE_SIZE" FlagValue.natural fun c v => { c with capacity := some v },
   taking "stop-after" "STOP_AFTER" FlagValue.natural (fun c v => { c with stopAfter := some v })
    "Stop once this many endpoints were found",
   taking "scan-timeout-ms" "SCAN_TIMEOUT_MS" FlagValue.millis fun c v =>
    { c with scanTimeout := some v },
   taking "private-key" "PRIVATE_KEY" .ok (fun c v => { c with privateKey := some v })
    "Base64 WireGuard private key",
   taking "peer-public-key" "PEER_PUBLIC_KEY" .ok (fun c v => { c with peerPublicKey := some v })
    "Base64 public key of the scanned edges",
   taking "preshared-key" "PRESHARED_KEY" .ok fun c v => { c with presharedKey := some v },
   taking "output" "OUTPUT" FlagValue.path (fun c v => { c with output := some v })
    "Write results as pretty JSON to this path (optional)",
   { name := "verbose", letter := some 'v', action := .mark fun c => { c with verbose := true } },
   { name := "help", letter := some 'h', help := "Print help", action := .showHelp },
   { name := "version", letter := some 'V', help := "Print version", action := .showVersion }]

def named? (name : String) : Option Flag := all.find? (·.name == name)

def lettered? (letter : Char) : Option Flag := all.find? (·.letter == some letter)

end Flag

end EdgeScan
