import EdgeScan.Candidates
import EdgeScan.Handshake.Keys
import EdgeScan.Scan.Timeline

/-!
The scanner: runs scans with fixed options, one after the other, and shows the counters and
results of the latest.
-/

namespace EdgeScan.Scan

/-- A scanner, and the ledger of its latest run. -/
structure Scanner where
  options : Options
  latest : Option Ledger := none

/-- When the caller cancels a run: before it starts, or some time after. -/
structure Cancellation where
  before : Bool := false
  after : Option Duration := none

structure Run where
  summary : Summary
  ledger : Ledger
  callerCancelled : Bool

namespace Run

def events (r : Run) : List Event := r.ledger.journal.reverse

def dialled (r : Run) : List Endpoint := r.ledger.dials.reverse.map Dial.target

end Run

/-- A bound on the number of steps of a scan with the given numbers of candidates and tasks. -/
def stepBound (candidates tasks : Nat) : Nat := 32 * (candidates + tasks + 1)

def play {σ τ : Type} [BEq τ] [Hashable τ] (m : Machine σ τ) (probes : Probes) (state : σ)
    (bound : Nat) (alarms : List (Nat × Alarm)) (callerCancelled : Bool) : Ledger × Bool :=
  let t : Timeline σ τ := { state, alarms, callerCancelled }
  let t := t.run m probes bound
  (m.ledger t.state, t.callerCancelled)

namespace Scanner

/-- The results so far, fastest first. There are none before a run was started. -/
def available (s : Scanner) : List Measurement :=
  match s.latest with
  | none => []
  | some l => l.ranking.list false

def stats (s : Scanner) : Summary :=
  match s.latest with
  | none => {}
  | some l => l.summary

def alarms (o : Options) (c : Cancellation) : List (Nat × Alarm) :=
  (o.scanTimeout.map fun d => (d.nanos, Alarm.timeout)).toList ++
    (c.after.map fun d => (d.nanos, Alarm.caller)).toList

def runPipeline (o : Options) (probes : Probes) (c : Cancellation) (l : Ledger) : Ledger × Bool :=
  let ((candidates, events), source) := ((do (← CandidatePlan.draw o).generate : Draw _)).run l.source
  let l := events.foldl Ledger.note { l with source }
  match candidates with
  | .error e => (l.note (.generationFailed e), c.before)
  | .ok candidates =>
    let l := { l with candidates := candidates.length }.note (.generated candidates.length)
    play (Pipeline.machine o) probes (Pipeline.start o l candidates)
      (stepBound candidates.length (3 * width o + 1)) (alarms o c) c.before

def runPortScan (o : Options) (probes : Probes) (c : Cancellation) (l : Ledger) : Ledger × Bool :=
  let targets := o.portTargets.endpoints
  let l := { l with candidates := targets.length }.note (.pairsListed targets.length)
  play (PortScan.machine o) probes (PortScan.start l targets)
    (stepBound targets.length (targets.length + 1)) (alarms o c) c.before

/-- Runs one scan to its end. Only unusable options are an error; a scan that finds nothing is
none. -/
def run (s : Scanner) (probes : Probes) (c : Cancellation) (source : Source) :
    Except ScanError (Run × Scanner) := do
  s.options.validate
  let l := { Ledger.start s.options source with cancelled := c.before }
  let (l, callerCancelled) :=
    if s.options.isPortScan then runPortScan s.options probes c l
    else runPipeline s.options probes c l
  let l := l.note .finished
  return (⟨l.summary, l, callerCancelled⟩, { s with latest := some l })

/-- Runs one scan with the keys that the options give. Without usable keys nothing is run. -/
def runWithKeys (s : Scanner) (probes : Probes) (c : Cancellation) (source : Source) :
    Except ScanError (Run × Scanner) := do
  s.options.validate
  let _ ← Handshake.Keys.ofOptions .wireGuard s.options
  s.run probes c source

end Scanner

end EdgeScan.Scan
