import EdgeScan.Scan.Ledger

/-!
Probes with a prescribed behaviour. A behaviour is worked through in a fixed order: it may panic,
cancel the scan, hang until the scan is cancelled, wait for a while, and then it answers.
-/

namespace EdgeScan.Scan

structure Behaviour where
  panics : Bool := false
  cancels : Bool := false
  hangs : Bool := false
  /-- How long it waits; a cancellation makes it answer at once that it was cancelled. -/
  delay : Option Duration := none
  result : Except ProbeError Duration

inductive Reaction
  | answers (outcome : Outcome)
  | cancelsScan
  /-- It waits until the scan is cancelled, or at most until the given time. -/
  | waits (deadline : Option Nat)

def Behaviour.outcome (b : Behaviour) (target : Endpoint) : Outcome :=
  match b.result with
  | .ok rtt => .measured { endpoint := target, rtt }
  | .error e => .failed e

/-- What a probe does at time `now` that was called at time `since`. Times are in nanoseconds. -/
def Behaviour.react (b : Behaviour) (target : Endpoint) (since now : Nat) (cancelled : Bool) :
    Reaction :=
  if b.panics then .answers .panicked
  else if b.cancels && !cancelled then .cancelsScan
  else if b.hangs && !cancelled then .waits none
  else
    match b.delay with
    | none => .answers (b.outcome target)
    | some d =>
      if cancelled then .answers (.failed .cancelled)
      else if since + d.nanos ≤ now then .answers (b.outcome target)
      else .waits (some (since + d.nanos))

structure Probes where
  icmp : Endpoint → Behaviour
  tcp : Endpoint → Behaviour
  handshake : Endpoint → Behaviour

def Probes.behaviour (p : Probes) (stage : Option Stage) : Endpoint → Behaviour :=
  match stage with
  | some .icmp => p.icmp
  | some .tcp => p.tcp
  | none => p.handshake

/-- A probe without a network: it fails at once, or answers that it was cancelled. -/
def Behaviour.offline : Behaviour where
  delay := some .zero
  result := .error (.io "Network is unreachable (os error 101)")

def Probes.offline : Probes := ⟨fun _ => .offline, fun _ => .offline, fun _ => .offline⟩

end EdgeScan.Scan
