import EdgeScan.Proofs.Scan.Results
import EdgeScan.Scan.PortScan

/-!
Runs of a dedicated scan: every order of actions that its tasks, the probes and the caller can bring
about. The tasks of its endpoints accept results in the same way as the handshake workers of a
pipeline do.
-/
namespace EdgeScan.Scan

/-- What the task of an endpoint does: the results it enters, the ledger, and what is next. -/
inductive PairTask.Move (o : Options) (replies : Replies) (l : Ledger) :
    PairTask → List Measurement → Ledger → PairTask → Prop
  | call (t : Endpoint) : Move o replies l (.ready t) [] (l.dial t t) (.busy (.probing t))
  | succeed {t : Endpoint} {m : Measurement} (answer : replies l.cancelled none t (.measured m)) :
      Move o replies l (.busy (.probing t)) [] l.succeed (.busy (.ranking m))
  | fail {t : Endpoint} {e : ProbeError} (answer : replies l.cancelled none t (.failed e)) :
      Move o replies l (.busy (.probing t)) [] (l.failHandshake e) .done
  | panic {t : Endpoint} (answer : replies l.cancelled none t .panicked) :
      Move o replies l (.busy (.probing t)) [] (l.note .pairPanicked) .done
  | rank (m : Measurement) :
      Move o replies l (.busy (.ranking m)) [m] (l.enqueue m) (.busy .checking)
  | enough (found : l.hasEnough o = true) :
      Move o replies l (.busy .checking) [] l (.busy .stopping)
  | proceed (found : l.hasEnough o = false) : Move o replies l (.busy .checking) [] l .done
  | stop : Move o replies l (.busy .stopping) [] (l.note .enoughFound).cancel .done

/-- What happens in a dedicated scan: the results that are entered, and the state behind. -/
inductive PortScan.Move (o : Options) (replies : Replies) (s : PortScan) :
    List Measurement → PortScan → Prop
  | cancel (running : s.ledger.cancelled = false) :
      s.Move o replies [] { s with ledger := s.ledger.cancel }
  | report (e : Event) : s.Move o replies [] { s with ledger := s.ledger.note e }
  | begin {t : Endpoint} {rest : List Endpoint} (here : s.unstarted = t :: rest)
      (running : s.ledger.cancelled = false) :
      s.Move o replies [] { s with unstarted := rest, tasks := s.tasks ++ [.ready t] }
  | giveUp (cancelled : s.ledger.cancelled = true) : s.Move o replies [] { s with unstarted := [] }
  | pair {i : ℕ} {task task' : PairTask} {entered : List Measurement} {l : Ledger}
      (here : s.tasks[i]? = some task) (move : task.Move o replies s.ledger entered l task') :
      s.Move o replies entered ({ s with ledger := l }.become i task')

/-- The result that a task of a dedicated scan enters into the ranking next, if it does so. -/
def PairTask.entered : PairTask → List Measurement
  | .busy (.ranking m) => [m]
  | _ => []

namespace PortScan

/-- The result that an action enters into the ranking, if it does so. -/
def entered (s : PortScan) : PortScanAction → List Measurement
  | .advance (.pair i) => (s.tasks[i]?.map PairTask.entered).getD []
  | _ => []

/-- Whether an action is one that probes allow: an answer has to be one of the target that the task
waits for. -/
def Allows (replies : Replies) (s : PortScan) : PortScanAction → Prop
  | .answer i outcome => ∃ target, s.awaited (.pair i) = some target ∧
      replies s.ledger.cancelled none target outcome
  | _ => True

/-- A dedicated scan when its first task begins. It may be cancelled before. -/
def opened (o : Options) (source : Source) (cancelled : Bool) (journal : List Event)
    (targets : List Endpoint) : PortScan :=
  .start { Ledger.start o source with cancelled, journal, candidates := targets.length } targets

/-- The states that runs lead to, with the results entered on the way, the earliest first. -/
inductive Reaches (o : Options) (replies : Replies) (start : PortScan) :
    List Measurement → PortScan → Prop
  | start : Reaches o replies start [] start
  | step {history : List Measurement} {s s' : PortScan} {a : PortScanAction}
      (before : Reaches o replies start history s) (allowed : s.Allows replies a)
      (step : s.step o a = some s') : Reaches o replies start (history ++ s.entered a) s'
  | report {history : List Measurement} {s : PortScan}
      (before : Reaches o replies start history s) (e : Event) :
      Reaches o replies start history { s with ledger := s.ledger.note e }

variable {o : Options} {replies : Replies} {start s s' : PortScan} {history : List Measurement}

lemma exists_move_of_advance (replies : Replies) {i : ℕ}
    (h : s.advance o (.pair i) = some s') :
    ∃ task l task', s.tasks[i]? = some task ∧
      task.Move o replies s.ledger (s.entered (.advance (.pair i))) l task' ∧
      s' = { s with ledger := l }.become i task' := by
  simp only [advance] at h
  simp only [entered]
  split at h
  · rename_i t here
    exact ⟨_, _, _, here, by simpa [here, PairTask.entered] using .call t,
      (Option.some.inj h).symm⟩
  · rename_i work here
    cases work with
    | probing t => exact absurd h (by simp [DialWork.advance])
    | ranking m =>
      exact ⟨_, _, _, here, by simpa [here, PairTask.entered] using .rank m,
        (Option.some.inj h).symm⟩
    | checking =>
      simp only [DialWork.advance, Option.map_some, Option.some.injEq] at h
      refine ⟨_, _, _, here, ?_, h.symm⟩
      cases found : s.ledger.hasEnough o with
      | true => simpa [here, PairTask.entered] using .enough found
      | false => simpa [here, PairTask.entered] using .proceed found
    | stopping =>
      exact ⟨_, _, _, here, by simpa [here, PairTask.entered] using .stop,
        (Option.some.inj h).symm⟩
  · exact absurd h (by simp)

lemma exists_move_of_settle (o : Options) (replies : Replies) {i : ℕ} {target : Endpoint}
    {outcome : Outcome} (waits : s.awaited (.pair i) = some target)
    (answer : replies s.ledger.cancelled none target outcome) (h : s.settle i outcome = some s') :
    ∃ task l task', s.tasks[i]? = some task ∧ task.Move o replies s.ledger [] l task' ∧
      s' = { s with ledger := l }.become i task' := by
  simp only [awaited] at waits
  split at waits
  · rename_i here
    cases waits
    simp only [settle, here] at h
    cases outcome with
    | measured m => exact ⟨_, _, _, here, .succeed answer, (Option.some.inj h).symm⟩
    | failed e => exact ⟨_, _, _, here, .fail answer, (Option.some.inj h).symm⟩
    | panicked => exact ⟨_, _, _, here, .panic answer, (Option.some.inj h).symm⟩
  · exact absurd waits (by simp)

theorem move_of_step {a : PortScanAction} (allowed : s.Allows replies a)
    (h : s.step o a = some s') : s.Move o replies (s.entered a) s' := by
  cases a with
  | advance task =>
    cases task with
    | starter =>
      simp only [step, advance] at h
      split at h
      · exact absurd h (by simp)
      · rename_i here
        split_ifs at h with cancelled
        · exact Option.some.inj h ▸ .giveUp cancelled
        · exact Option.some.inj h ▸ .begin here (by simpa using cancelled)
    | pair i =>
      obtain ⟨task, l, task', here, move, rfl⟩ := exists_move_of_advance replies h
      exact .pair here move
  | answer i outcome =>
    obtain ⟨target, waits, answer⟩ := allowed
    obtain ⟨task, l, task', here, move, rfl⟩ := exists_move_of_settle o replies waits answer h
    exact .pair here move
  | cancel =>
    unfold step at h
    split_ifs at h with running
    exact Option.some.inj h ▸ .cancel (by simpa using running)

theorem Reaches.invariant {P : List Measurement → PortScan → Prop}
    (reached : Reaches o replies start history s) (initial : P [] start)
    (kept : ∀ history s entered s', P history s → s.Move o replies entered s' →
      P (history ++ entered) s') : P history s := by
  induction reached with
  | start => exact initial
  | step before allowed step ih => exact kept _ _ _ _ ih (move_of_step allowed step)
  | report before e ih => simpa using kept _ _ _ _ ih (.report e)

end PortScan

/-- Counts a result that is entered, as long as it is tested whether the scan stops early. -/
def PairTask.testing : PairTask → ℕ
  | .busy .checking | .busy .stopping => 1
  | _ => 0

/-- The results of a dedicated scan that are entered and still tested. -/
def PortScan.testing (s : PortScan) : ℕ := (s.tasks.map PairTask.testing).sum

/-- A bound on the steps that the task of an endpoint still takes. -/
def PairTask.stepsLeft : PairTask → ℕ
  | .ready _ => 5
  | .busy (.probing _) => 4
  | .busy (.ranking _) => 3
  | .busy .checking => 2
  | .busy .stopping => 1
  | .done => 0

lemma PairTask.Move.stepsLeft_lt {o : Options} {replies : Replies} {l l' : Ledger}
    {task task' : PairTask} {entered : List Measurement}
    (move : task.Move o replies l entered l' task') : task'.stepsLeft < task.stepsLeft := by
  cases move <;> simp [PairTask.stepsLeft]

theorem PairTask.Move.acceptance {o : Options} {replies : Replies} {l l' : Ledger}
    {task task' : PairTask} {entered : List Measurement}
    (move : task.Move o replies l entered l' task') (rest : ℕ) :
    Acceptance o l (task.testing + rest) entered l' (task'.testing + rest) := by
  cases move with
  | call | succeed | panic | enough => exact ⟨rfl, rfl, id, fun _ => .inl rfl⟩
  | @fail t e =>
    obtain ⟨failed, journal, same, -⟩ := l.exists_failHandshake_eq e
    rw [same]
    exact ⟨rfl, rfl, id, fun _ => .inl rfl⟩
  | rank m =>
    obtain ⟨journal, same⟩ := l.exists_enqueue_eq m
    rw [same]
    refine ⟨rfl, rfl, id, fun _ => .inl ?_⟩
    simp only [testing, List.length_singleton]
    omega
  | proceed found =>
    refine ⟨rfl, rfl, id, fun _ => .inr ⟨?_, rfl, found⟩⟩
    simp only [testing]
    omega
  | stop =>
    exact ⟨rfl, rfl, fun running => absurd running (by simp [Ledger.cancel]),
      fun running => absurd running (by simp [Ledger.cancel])⟩

namespace PortScan

variable {o : Options} {replies : Replies} {s s' : PortScan} {source : Source} {cancelled : Bool}
  {journal : List Event} {targets : List Endpoint} {history entered : List Measurement}

lemma acceptance_of_move (move : s.Move o replies entered s') :
    Acceptance o s.ledger s.testing entered s'.ledger s'.testing := by
  cases move with
  | cancel => exact ⟨rfl, rfl, fun running => absurd running (by simp [Ledger.cancel]),
      fun running => absurd running (by simp [Ledger.cancel])⟩
  | report | giveUp => exact ⟨rfl, rfl, id, fun _ => .inl rfl⟩
  | begin => exact ⟨rfl, rfl, id, fun _ => .inl (by simp [testing, PairTask.testing])⟩
  | pair here move =>
    obtain ⟨rest, hold, hnew⟩ := Pool.exists_sum_set PairTask.testing here
    have accept := move.acceptance rest
    rwa [← hold, ← hnew] at accept

/-- What holds of the results of a pipeline also holds of those of a dedicated scan. -/
theorem accepted_of_reaches
    (reached : Reaches o replies (opened o source cancelled journal targets) history s) :
    Accepted o targets.length history s.ledger s.testing := by
  refine reached.invariant (P := fun history s =>
    Accepted o targets.length history s.ledger s.testing) ?_ ?_
  · exact ⟨rfl, rfl, fun positive _ _ => Nat.lt_add_right _ positive⟩
  · intro history s entered s' accepted move
    exact accepted.step (acceptance_of_move move)

/-- A bound on the steps of a dedicated scan: an endpoint causes 6 of them, the first of which
starts its task. -/
def stepsLeft (s : PortScan) : ℕ :=
  (!s.ledger.cancelled).toNat + 6 * s.unstarted.length + (s.tasks.map PairTask.stepsLeft).sum

lemma stepsLeft_lt_of_pair {i : ℕ} {task task' : PairTask} {l : Ledger}
    (here : s.tasks[i]? = some task) (move : task.Move o replies s.ledger entered l task') :
    (({ s with ledger := l } : PortScan).become i task').stepsLeft < s.stepsLeft := by
  have flag : (!l.cancelled).toNat ≤ (!s.ledger.cancelled).toNat := by
    cases running : l.cancelled with
    | false => simp [(move.acceptance 0).running running]
    | true => exact Nat.zero_le _
  have less := move.stepsLeft_lt
  obtain ⟨rest, hold, hnew⟩ := Pool.exists_sum_set PairTask.stepsLeft here
  have after := hnew task'
  simp only [stepsLeft, become]
  omega

/-- The answer to a task that waits for one is an action that enters nothing. -/
lemma exists_step_of_settle {task : PortScanTask} {stage : Option Stage} {target : Endpoint}
    {outcome : Outcome} (waits : (machine o).awaited s task = some (stage, target))
    (answer : replies s.ledger.cancelled stage target outcome)
    (step : (machine o).settle s task outcome = some s') :
    ∃ a, s.Allows replies a ∧ s.step o a = some s' ∧ s.entered a = [] := by
  cases task with
  | starter => exact absurd step (by simp [machine])
  | pair i =>
    obtain ⟨_, asks, same⟩ := Option.map_eq_some_iff.mp waits
    obtain ⟨rfl, rfl⟩ := Prod.mk.inj same
    exact ⟨.answer i outcome, ⟨_, asks, answer⟩, step, rfl⟩

/-- Serves the tasks of a dedicated scan. -/
abbrev serveAll (o : Options) (f : Answers) :=
  (machine o).serveAll (fun s task => s.entered (.advance task)) f

theorem reaches_of_serveAll {f : Answers} {start : PortScan} (schedule : List PortScanTask)
    (reached : Reaches o f.replies start history s) :
    Reaches o f.replies start (serveAll o f history s schedule).1
      (serveAll o f history s schedule).2 := by
  refine Machine.kept_of_serveAll ?_ ?_ schedule reached
  · exact fun before step => before.step trivial step
  · intro _ s task stage target _ before waits step
    obtain ⟨a, allowed, step, nothing⟩ :=
      exists_step_of_settle waits (f.replies_outcome _ stage target) step
    have after := before.step allowed step
    rwa [nothing, List.append_nil] at after

end PortScan

end EdgeScan.Scan
