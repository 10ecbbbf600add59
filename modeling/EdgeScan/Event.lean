import EdgeScan.Error

/-!
The journal of the program. Functions that have something to report hand back the events in the
order in which they happened.
-/

namespace EdgeScan

inductive Level
  | error
  | warn
  | info
  | debug
deriving DecidableEq, Repr

def Level.name : Level → String
  | error => "ERROR"
  | warn => "WARN"
  | info => "INFO"
  | debug => "DEBUG"

/-- What the program reports while it prepares and runs a scan. -/
inductive Event
  | endpointAdded (entry : String) (count : Nat)
  | endpointSkipped (entry : String) (error : ScanError)
  | hostOutsideFamilies (host : String)
  | hostUnresolved (host reason : String)
  | blockSkipped (entry reason : String)
  | blockWithoutSamples (block : String)
  | generated (count : Nat)
  | generationFailed (error : ScanError)
  | pairsListed (count : Nat)
  | passedFilter
  | aboveThreshold
  | probeFailed
  | handshakeSucceeded
  | evicted
  | enoughFound
  | timeoutReached
  | workerPanicked
  | pairPanicked
  | finished
deriving DecidableEq, Repr

namespace Event

def level : Event → Level
  | endpointAdded .. => .debug
  | endpointSkipped .. | hostOutsideFamilies .. | hostUnresolved .. => .warn
  | blockSkipped .. | blockWithoutSamples .. => .warn
  | generated .. | pairsListed .. | enoughFound | timeoutReached | finished => .info
  | generationFailed .. | workerPanicked | pairPanicked => .error
  | passedFilter | aboveThreshold | probeFailed | handshakeSucceeded | evicted => .debug

def message : Event → String
  | endpointAdded .. => "added custom endpoint"
  | endpointSkipped .. => "skipping custom endpoint"
  | hostOutsideFamilies .. => "no resolved address matches the enabled families"
  | hostUnresolved .. => "failed to resolve host, skipping"
  | blockSkipped .. => "skipping unparseable CIDR"
  | blockWithoutSamples .. => "no usable addresses sampled from range"
  | generated .. => "generated candidates"
  | generationFailed .. => "candidate generation failed"
  | pairsListed .. => "port scan targets"
  | passedFilter => "passed"
  | aboveThreshold => "rtt above threshold"
  | probeFailed => "probe failed"
  | handshakeSucceeded => "handshake ok"
  | evicted => "evicted from full queue"
  | enoughFound => "found enough endpoints, stopping scan"
  | timeoutReached => "scan timeout reached"
  | workerPanicked => "pipeline worker panicked"
  | pairPanicked => "port scan task panicked"
  | finished => "scan finished"

def details : Event → List (String × String)
  | endpointAdded entry count => [("endpoint", entry), ("count", toString count)]
  | endpointSkipped entry error => [("endpoint", entry), ("error", error.message)]
  | hostOutsideFamilies host => [("host", host)]
  | hostUnresolved host reason => [("host", host), ("error", reason)]
  | blockSkipped entry reason => [("cidr", entry), ("error", reason)]
  | blockWithoutSamples block => [("cidr", block)]
  | generated count | pairsListed count => [("count", toString count)]
  | generationFailed error => [("error", error.message)]
  | _ => []

end Event

end EdgeScan
