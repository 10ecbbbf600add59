import EdgeScan.Proofs.Scan.Moves
import EdgeScan.Scan.Timeline

/-!
Runs of a pipeline: every order of actions that its tasks, the probes and the caller can bring
about. A run is followed together with the results that it enters into the ranking. Some runs are made
by serving the tasks of a machine in a given order.
-/
namespace EdgeScan.Scan

/-- Probes that go by their target alone: the endpoint and the round trip that they measure, or
their error. When they measure it is left open. -/
abbrev Answers := Option Stage → Endpoint → Except ProbeError (Endpoint × Duration)

/-- What probes may answer that go by their target alone. They never panic; once the scan is cancelled
they may also answer that they were. -/
def Answers.replies (f : Answers) : Replies := fun cancelled stage target outcome =>
  match outcome with
  | .measured m => f stage target = .ok (m.endpoint, m.rtt)
  | .failed e => f stage target = .error e ∨ cancelled = true ∧ e = .cancelled
  | .panicked => False

/-- The answer of a probe that goes by its target alone. -/
def Answers.outcome (f : Answers) (stage : Option Stage) (target : Endpoint) : Outcome :=
  match f stage target with
  | .ok (endpoint, rtt) => .measured { endpoint, rtt }
  | .error e => .failed e

lemma Answers.replies_outcome (f : Answers) (cancelled : Bool) (stage : Option Stage)
    (target : Endpoint) : f.replies cancelled stage target (f.outcome stage target) := by
  unfold outcome
  split
  · assumption
  · rename_i error
    exact .inl error

namespace Machine

variable {σ τ : Type}

/-- Lets a task take its next step, with the answer of its probe if it waits for one. What a task
enters into the ranking when it goes on by itself is told by `entered`. -/
def serve (m : Machine σ τ) (entered : σ → τ → List Measurement) (f : Answers) (s : σ) (task : τ) :
    Option (List Measurement × σ) :=
  match m.awaited s task with
  | some (stage, target) => (m.settle s task (f.outcome stage target)).map ([], ·)
  | none => (m.advance s task).map (entered s task, ·)

/-- Serves tasks in a given order, and passes over those that cannot take a step. -/
def serveAll (m : Machine σ τ) (entered : σ → τ → List Measurement) (f : Answers)
    (history : List Measurement) (s : σ) : List τ → List Measurement × σ
  | [] => (history, s)
  | task :: rest =>
    match m.serve entered f s task with
    | some (new, s') => serveAll m entered f (history ++ new) s' rest
    | none => serveAll m entered f history s rest

variable {m : Machine σ τ} {entered : σ → τ → List Measurement} {f : Answers}
  {P : List Measurement → σ → Prop} {history : List Measurement} {s : σ}

/-- What the steps of single tasks keep is kept whatever order tasks are served in. -/
theorem kept_of_serveAll
    (advance : ∀ {history s task s'}, P history s → m.advance s task = some s' →
      P (history ++ entered s task) s')
    (settle : ∀ {history s task stage target s'}, P history s →
      m.awaited s task = some (stage, target) →
      m.settle s task (f.outcome stage target) = some s' → P history s')
    (schedule : List τ) (here : P history s) :
    P (m.serveAll entered f history s schedule).1 (m.serveAll entered f history s schedule).2 := by
  induction schedule generalizing history s with
  | nil => exact here
  | cons task rest ih =>
    unfold serveAll serve
    cases waits : m.awaited s task with
    | some asked =>
      cases step : m.settle s task (f.outcome asked.1 asked.2) with
      | some s' => simpa [step] using ih (settle here waits step)
      | none => simpa [step] using ih here
    | none =>
      cases step : m.advance s task with
      | some s' => simpa [step] using ih (advance here step)
      | none => simpa [step] using ih here

end Machine

namespace Pipeline

/-- The pipeline of a scan when its tasks begin: only the number of candidates is entered so far.
The scan may be cancelled before. -/
def opened (o : Options) (source : Source) (cancelled : Bool) (journal : List Event)
    (candidates : List Endpoint) : Pipeline :=
  .start o { Ledger.start o source with cancelled, journal, candidates := candidates.length }
    candidates

/-- The states that runs lead to, with the results entered on the way, the earliest first. What
goes on around a scan may be reported at any time. -/
inductive Reaches (o : Options) (replies : Replies) (start : Pipeline) :
    List Measurement → Pipeline → Prop
  | start : Reaches o replies start [] start
  | step {history : List Measurement} {s s' : Pipeline} {a : PipelineAction}
      (before : Reaches o replies start history s) (allowed : s.Allows o replies a)
      (step : s.step o a = some s') : Reaches o replies start (history ++ s.entered a) s'
  | report {history : List Measurement} {s : Pipeline}
      (before : Reaches o replies start history s) (e : Event) :
      Reaches o replies start history { s with ledger := s.ledger.note e }

/-- A run in which all tasks have ended and the scan was never cancelled. -/
structure Completes (o : Options) (f : Answers) (source : Source) (journal : List Event)
    (candidates : List Endpoint) (history : List Measurement) (s : Pipeline) : Prop where
  reached : Reaches o f.replies (opened o source false journal candidates) history s
  done : s.isDone = true
  running : s.ledger.cancelled = false

variable {o : Options} {replies : Replies} {start s s' : Pipeline} {history : List Measurement}

/-- What holds at the start and is kept by every move holds in every state that is reached. -/
theorem Reaches.invariant {P : List Measurement → Pipeline → Prop}
    (reached : Reaches o replies start history s) (initial : P [] start)
    (kept : ∀ history s entered s', Reaches o replies start history s → P history s →
      s.Move o replies entered s' → P (history ++ entered) s') : P history s := by
  induction reached with
  | start => exact initial
  | step before allowed step ih => exact kept _ _ _ _ before ih (move_of_step allowed step)
  | report before e ih => simpa using kept _ _ _ _ before ih (.report e)

theorem cancelled_of_move {entered : List Measurement} (move : s.Move o replies entered s')
    (cancelled : s.ledger.cancelled = true) : s'.ledger.cancelled = true := by
  cases move with
  | cancel => rfl
  | report => exact cancelled
  | act act =>
    cases act with
    | feedSends | feedEnds => exact cancelled
    | icmp move | tcp move =>
      cases move with
      | turn | skip | send | quit | drop | panic => exact cancelled
      | call => exact cancelled
      | pass => exact cancelled
      | fail => simp [Ledger.noteFailure, cancelled]
    | dial move =>
      cases move with
      | turn | call | succeed | panic | enough | proceed => exact cancelled
      | fail => simp [Ledger.failHandshake, cancelled]
      | rank =>
        simp only [Ledger.enqueue]
        split <;> exact cancelled
      | stop => rfl

theorem running_of_move {entered : List Measurement} (move : s.Move o replies entered s')
    (running : s'.ledger.cancelled = false) : s.ledger.cancelled = false := by
  by_contra cancelled
  have after := cancelled_of_move move (by simpa using cancelled)
  simp [running] at after

lemma running_of_reaches (reached : Reaches o replies start history s)
    (running : s.ledger.cancelled = false) : start.ledger.cancelled = false :=
  reached.invariant (P := fun _ s => s.ledger.cancelled = false → start.ledger.cancelled = false)
    id (fun _ _ _ _ _ before move running => before (running_of_move move running)) running

/-- Serves the tasks of a pipeline. -/
abbrev serveAll (o : Options) (f : Answers) :=
  (machine o).serveAll (fun s task => s.entered (.advance task)) f

theorem reaches_of_serveAll {f : Answers} (schedule : List PipelineTask)
    (reached : Reaches o f.replies start history s) :
    Reaches o f.replies start (serveAll o f history s schedule).1
      (serveAll o f history s schedule).2 := by
  refine Machine.kept_of_serveAll ?_ ?_ schedule reached
  · exact fun before step => before.step trivial step
  · intro _ s task stage target _ before waits step
    simpa [entered] using before.step (a := .answer task _)
      ⟨stage, target, waits, f.replies_outcome _ stage target⟩ step

end Pipeline

end EdgeScan.Scan
