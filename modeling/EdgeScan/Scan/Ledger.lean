import EdgeScan.Event
import EdgeScan.Options.Basic
import EdgeScan.Random.Uniform
import EdgeScan.Report

/-!
What all tasks of a scan share: the counters, the ranking of results, the token that cancels the
scan, the random source, and a record of the probes called and the events reported.
-/

namespace EdgeScan.Scan

inductive Stage
  | icmp
  | tcp
deriving DecidableEq, Repr, Hashable

/-- A handshake attempt: the candidate it is made for and the endpoint that is asked. -/
structure Dial where
  candidate : Endpoint
  target : Endpoint
deriving DecidableEq, Repr

inductive Outcome
  | measured (m : Measurement)
  | failed (e : ProbeError)
  | panicked
deriving DecidableEq, Repr

/-- The shared state of a scan. Lists of what happened have the latest first. -/
structure Ledger where
  candidates : Nat := 0
  icmpPassed : Nat := 0
  tcpPassed : Nat := 0
  handshakesOk : Nat := 0
  handshakesFailed : Nat := 0
  ranking : Ranking
  cancelled : Bool := false
  source : Source
  icmpCalls : List Endpoint := []
  tcpCalls : List Endpoint := []
  dials : List Dial := []
  journal : List Event := []
deriving Repr

namespace Ledger

def start (o : Options) (source : Source) : Ledger :=
  { ranking := .empty o.capacity, source }

def note (l : Ledger) (e : Event) : Ledger := { l with journal := e :: l.journal }

def cancel (l : Ledger) : Ledger := { l with cancelled := true }

def call (l : Ledger) (stage : Stage) (target : Endpoint) : Ledger :=
  match stage with
  | .icmp => { l with icmpCalls := target :: l.icmpCalls }
  | .tcp => { l with tcpCalls := target :: l.tcpCalls }

def dial (l : Ledger) (candidate target : Endpoint) : Ledger :=
  { l with dials := ⟨candidate, target⟩ :: l.dials }

def pass (l : Ledger) (stage : Stage) : Ledger :=
  match stage with
  | .icmp => { l with icmpPassed := l.icmpPassed + 1 }
  | .tcp => { l with tcpPassed := l.tcpPassed + 1 }

/-- Reports a failed probe. After a cancellation failures are part of the ending and are not
reported, nor is a probe that was itself cancelled. -/
def noteFailure (l : Ledger) (e : ProbeError) : Ledger :=
  if e.isCancelled || l.cancelled then l else l.note .probeFailed

/-- Counts and reports a failed handshake, unless it failed because the scan was cancelled. -/
def failHandshake (l : Ledger) (e : ProbeError) : Ledger :=
  if e.isCancelled || l.cancelled then l
  else { l with handshakesFailed := l.handshakesFailed + 1 }.note .probeFailed

def succeed (l : Ledger) : Ledger :=
  { l with handshakesOk := l.handshakesOk + 1 }.note .handshakeSucceeded

def enqueue (l : Ledger) (m : Measurement) : Ledger :=
  let (ranking, evicted) := l.ranking.enqueue m
  let l := { l with ranking }
  if evicted.isSome then l.note .evicted else l

/-- Whether enough results were found to stop a scan that is still going on. -/
def hasEnough (l : Ledger) (o : Options) : Bool :=
  0 < o.stopAfter && o.stopAfter ≤ l.ranking.size && !l.cancelled

def summary (l : Ledger) : Summary where
  candidates := l.candidates
  icmpPassed := l.icmpPassed
  tcpPassed := l.tcpPassed
  handshakesOk := l.handshakesOk
  handshakesFailed := l.handshakesFailed
  found := l.ranking.size
  endpoints := l.ranking.entries

end Ledger

/-- The port of a handshake: the candidate's own, else the configured one, else a random default
port. -/
def handshakePort (o : Options) (candidatePort : UInt16) : Draw UInt16 :=
  if candidatePort ≠ 0 then pure candidatePort
  else if o.port ≠ 0 then pure o.port
  else Draw.choose o.defaultPorts defaultHandshakePort

def Stage.limit (stage : Stage) (o : Options) : Duration :=
  match stage with
  | .icmp => o.icmpLimit
  | .tcp => o.tcpLimit

def Stage.enabled (stage : Stage) (o : Options) : Bool :=
  match stage with
  | .icmp => o.icmpFilter
  | .tcp => o.tcpFilter

/-- The endpoint that a filter probes for a candidate: the candidate itself, or for TCP its
address with the configured port. -/
def Stage.target (stage : Stage) (o : Options) (candidate : Endpoint) : Endpoint :=
  match stage with
  | .icmp => candidate
  | .tcp => .new candidate.address o.tcpFilterPort

end EdgeScan.Scan
