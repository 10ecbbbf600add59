import Std.Data.HashMap
import EdgeScan.Scan.Behaviour
import EdgeScan.Scan.Pipeline
import EdgeScan.Scan.PortScan

/-!
Running a scan in virtual time. Time stands still while any task can take a step, and then jumps to
the next moment at which a probe stops waiting or an alarm goes off. Tasks are served in turn, each
until it can go on no longer; they take no steps but those of the scan itself. A scan without any
time is over once it has been opened. Its caller waits until nothing goes on by itself, even to
cancel it at once.
-/

namespace EdgeScan.Scan

/-- A scan as a scheduler sees it: states `σ` with tasks `τ`. -/
structure Machine (σ τ : Type) where
  /-- The tasks that go on first, before any alarm can go off. -/
  opening : List τ
  tasks : σ → List τ
  isDone : σ → Bool
  advance : σ → τ → Option σ
  awaited : σ → τ → Option (Option Stage × Endpoint)
  settle : σ → τ → Outcome → Option σ
  ledger : σ → Ledger
  setLedger : σ → Ledger → σ

def Pipeline.machine (o : Options) : Machine Pipeline PipelineTask where
  opening := []
  tasks := Pipeline.tasks
  isDone := Pipeline.isDone
  advance := fun s task => s.step o (.advance task)
  awaited := fun s task => s.awaited o task
  settle := fun s task outcome => s.step o (.answer task outcome)
  ledger := Pipeline.ledger
  setLedger := fun s l => { s with ledger := l }

def PortScan.machine (o : Options) : Machine PortScan PortScanTask where
  opening := [.starter]
  tasks := PortScan.taskList
  isDone := PortScan.isDone
  advance := fun s task => s.step o (.advance task)
  awaited := fun s task => (s.awaited task).map (none, ·)
  settle := fun s task outcome =>
    match task with
    | .starter => none
    | .pair i => s.step o (.answer i outcome)
  ledger := PortScan.ledger
  setLedger := fun s l => { s with ledger := l }

inductive Alarm
  | timeout
  | caller
deriving DecidableEq, Repr

structure Timeline (σ τ : Type) [BEq τ] [Hashable τ] where
  state : σ
  now : Nat := 0
  /-- When the probes were called that tasks wait for. -/
  since : Std.HashMap τ Nat := ∅
  alarms : List (Nat × Alarm) := []
  callerCancelled : Bool := false

namespace Timeline

variable {σ τ : Type} [BEq τ] [Hashable τ] (m : Machine σ τ) (probes : Probes)

def cancelled (t : Timeline σ τ) : Bool := (m.ledger t.state).cancelled

def cancel (t : Timeline σ τ) : Timeline σ τ :=
  { t with state := m.setLedger t.state (m.ledger t.state).cancel }

def note (t : Timeline σ τ) (e : Event) : Timeline σ τ :=
  { t with state := m.setLedger t.state ((m.ledger t.state).note e) }

def reaction (t : Timeline σ τ) (task : τ) (stage : Option Stage) (target : Endpoint) : Reaction :=
  (probes.behaviour stage target).react target (t.since.getD task t.now) t.now (t.cancelled m)

def stepTask (t : Timeline σ τ) (task : τ) : Option (Timeline σ τ) :=
  match m.awaited t.state task with
  | some (stage, target) =>
    match t.reaction m probes task stage target with
    | .answers outcome => (m.settle t.state task outcome).map fun state => { t with state }
    | .cancelsScan => some (t.cancel m)
    | .waits _ => none
  | none =>
    (m.advance t.state task).map fun state =>
      { t with state, since := t.since.insert task t.now }

/-- Lets a task go on until it cannot, and tells whether it did anything. -/
def runTask (task : τ) : Nat → Timeline σ τ → Timeline σ τ × Bool
  | 0, t => (t, false)
  | fuel + 1, t =>
    match t.stepTask m probes task with
    | none => (t, false)
    | some t => ((runTask task fuel t).1, true)

def pass (fuel : Nat) (t : Timeline σ τ) : Timeline σ τ × Bool :=
  (m.tasks t.state).foldl
    (fun (t, moved) task =>
      let (t, active) := runTask m probes task fuel t
      (t, moved || active))
    (t, false)

/-- Serves all tasks until none can go on. -/
def settleAll (fuel : Nat) : Nat → Timeline σ τ → Timeline σ τ
  | 0, t => t
  | n + 1, t =>
    let (t, moved) := pass m probes fuel t
    if moved then settleAll fuel n t else t

/-- What an alarm does: it cancels the scan. A scan that is cancelled already has no need of more
time. -/
def goOff (t : Timeline σ τ) : Alarm → Timeline σ τ
  | .timeout => if t.cancelled m then t else (t.note m .timeoutReached).cancel m
  | .caller => { t.cancel m with callerCancelled := true }

def ring (kinds : List Alarm) (t : Timeline σ τ) : Timeline σ τ :=
  let (due, later) := t.alarms.partition fun (time, alarm) => time ≤ t.now && kinds.contains alarm
  (due.map Prod.snd).foldl (goOff m) { t with alarms := later }

def wakeTimes (t : Timeline σ τ) : List Nat :=
  (m.tasks t.state).filterMap fun task =>
    match m.awaited t.state task with
    | some (stage, target) =>
      match t.reaction m probes task stage target with
      | .waits deadline => deadline
      | _ => none
    | none => none

def nextTime (t : Timeline σ τ) : Option Nat :=
  (t.wakeTimes m probes ++ t.alarms.map Prod.fst).min?

/-- Opens the scan. If it has no time at all, that is noticed before other tasks begin. -/
def start (fuel : Nat) (t : Timeline σ τ) : Timeline σ τ :=
  (m.opening.foldl (fun t task => (runTask m probes task fuel t).1) t).ring m [.timeout]

/-- Goes on with the scan until all its tasks have ended: tasks are served, time jumps on, and
alarms go off. -/
def go (fuel : Nat) : Nat → Timeline σ τ → Timeline σ τ
  | 0, t => t
  | jumps + 1, t =>
    let t := settleAll m probes fuel fuel t
    if m.isDone t.state then t
    else
      match t.nextTime m probes with
      | none => t
      | some time => go fuel jumps ({ t with now := time }.ring m [.timeout, .caller])

def run (bound : Nat) (t : Timeline σ τ) : Timeline σ τ :=
  go m probes bound bound (start m probes bound t)

end Timeline

end EdgeScan.Scan
