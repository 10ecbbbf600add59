import EdgeScan.Proofs.Scan.Bounded
import EdgeScan.Proofs.Scan.Determinism
import EdgeScan.Proofs.Scan.PortScan
import EdgeScan.Proofs.Scan.Progress

/-!
The completion of scans in virtual time. If probes never hang then the scanner runs every scan until
all its tasks have ended, and a pipeline that was not cancelled finds the fastest endpoints.
-/
namespace EdgeScan.Scan

variable {o : Options} {replies : Replies} {i : ℕ} {more : Bool}

lemma Pool.exists_set_of_turn {Work : Type} {p p' : Pool Work} {cancelled : Bool}
    (turn : p.Turn i cancelled more p') : ∃ w, p'.workers = p.workers.set i w := by
  cases turn with
  | enter | take | leave => exact ⟨_, rfl⟩

lemma FilterWork.Move.exists_set {stage : Stage} {l : Ledger} {p : Pool FilterWork} {room : Room}
    {n : FilterStep} (move : Move o replies stage l p i more room n) :
    ∃ w, n.pool.workers = p.workers.set i w := by
  cases move with
  | turn turn => exact Pool.exists_set_of_turn turn
  | call | skip | send | quit | pass | drop | fail | panic => exact ⟨_, rfl⟩

lemma DialWork.Move.exists_set {l l' : Ledger} {p p' : Pool DialWork} {entered : List Measurement}
    (move : Move o replies l p i more entered l' p') :
    ∃ w, p'.workers = p.workers.set i w := by
  cases move with
  | turn turn => exact Pool.exists_set_of_turn turn
  | call | succeed | fail | panic | rank | enough | proceed | stop => exact ⟨_, rfl⟩

namespace Pipeline

variable {s s' : Pipeline} {task other : PipelineTask} {entered : List Measurement}

theorem Act.awaited_of_ne (act : s.Act o replies task entered s') (ne : other ≠ task) :
    s'.awaited o other = s.awaited o other := by
  cases act with
  | feedSends | feedEnds => cases other <;> rfl
  | @icmp i n move =>
    obtain ⟨w, set⟩ := move.exists_set
    cases other with
    | feed | dial => rfl
    | filter stage j =>
      cases stage with
      | tcp => rfl
      | icmp =>
        have apart : i ≠ j := fun same => ne (by rw [same])
        simp [awaited, set, List.getElem?_set_ne apart]
  | @tcp i n move =>
    obtain ⟨w, set⟩ := move.exists_set
    cases other with
    | feed | dial => rfl
    | filter stage j =>
      cases stage with
      | icmp => rfl
      | tcp =>
        have apart : i ≠ j := fun same => ne (by rw [same])
        simp [awaited, set, List.getElem?_set_ne apart]
  | @dial i entered l p move =>
    obtain ⟨w, set⟩ := move.exists_set
    cases other with
    | feed => rfl
    | filter stage j => cases stage <;> rfl
    | dial j =>
      have apart : i ≠ j := fun same => ne (by rw [same])
      simp [awaited, set, List.getElem?_set_ne apart]

lemma idle_of_not_mem (absent : task ∉ s.tasks) :
    s.awaited o task = none ∧ s.advance o task = none := by
  cases task with
  | feed => exact absurd List.mem_cons_self absent
  | filter stage i =>
    cases stage with
    | icmp =>
      have nobody : s.icmp.workers[i]? = none := by simpa [tasks] using absent
      simp [awaited, advance, advanceIcmp, FilterWork.advance, Pool.receive, nobody]
    | tcp =>
      have nobody : s.tcp.workers[i]? = none := by simpa [tasks] using absent
      simp [awaited, advance, advanceTcp, FilterWork.advance, Pool.receive, nobody]
  | dial i =>
    have nobody : s.dial.workers[i]? = none := by simpa [tasks] using absent
    simp [awaited, advance, advanceDial, Pool.receive, nobody]

theorem machine_bounded (o : Options) : (machine o).Bounded stepsLeft where
  advance {s s' task} step := by
    have act : s.Act o (fun _ _ _ _ => True) task _ s' := act_of_advance step
    exact ⟨act.stepsLeft_lt, fun other ne => act.awaited_of_ne ne⟩
  settle {s s' task outcome call} waits step := by
    have act : s.Act o (fun _ _ _ _ => True) task _ s' := act_of_settle waits trivial step
    exact ⟨act.stepsLeft_lt, fun other ne => act.awaited_of_ne ne⟩
  answer waits outcome := by
    obtain ⟨s', settles⟩ := exists_settle waits outcome
    exact Option.isSome_iff_exists.mpr ⟨s', settles⟩
  setLedger s l task := by
    cases task with
    | feed | dial => rfl
    | filter stage i => cases stage <;> rfl
  cancel s := by
    simp only [machine, stepsLeft, Ledger.cancel]
    refine ⟨by simp, fun running => by simp [running]⟩
  note s e := rfl
  done {s} idle := by
    refine isDone_of_idle (o := o) (fun task => ?_) fun task => ?_
    · by_cases mine : task ∈ s.tasks
      · exact (idle task mine).2
      · exact (idle_of_not_mem mine).2
    · by_cases mine : task ∈ s.tasks
      · exact (idle task mine).1
      · exact (idle_of_not_mem mine).1

lemma awaited_opened {source : Source} {cancelled : Bool} {journal : List Event}
    {candidates : List Endpoint} (task : PipelineTask) :
    (opened o source cancelled journal candidates).awaited o task = none := by
  cases task with
  | feed => rfl
  | filter stage i =>
    cases stage <;> simp [awaited, opened, start, Pool.start, List.getElem?_replicate]
  | dial i => simp [awaited, opened, start, Pool.start, List.getElem?_replicate]

/-- If probes never hang then a pipeline that is played in virtual time has ended all its tasks
before the bound for it is used up. -/
theorem completes_of_play {candidates : List Endpoint} {source : Source} {cancelled : Bool}
    {journal : List Event} {probes : Probes}
    (eager : ∀ stage target, (probes.behaviour stage target).hangs = false)
    {alarms : List (ℕ × Alarm)} (few : alarms.length ≤ 2) (callerCancelled : Bool) :
    let start := opened o source cancelled journal candidates
    ∃ history s, Reaches o probes.replies start history s ∧ s.isDone = true ∧
      s.ledger = (play (machine o) probes start
        (stepBound candidates.length (3 * width o + 1)) alarms callerCancelled).1 := by
  intro start
  have enough : start.stepsLeft + alarms.length <
      stepBound candidates.length (3 * width o + 1) := by
    have limit : start.stepsLeft ≤ 18 * candidates.length + 6 * width o + 2 :=
      stepsLeft_opened_le o source cancelled journal candidates
    unfold stepBound
    omega
  obtain ⟨s, ⟨history, reached⟩, done, ledger⟩ := (machine_bounded o).exists_of_play eager
    awaited_opened enough (keeps_reaches o probes start) ⟨[], .start⟩ callerCancelled
  exact ⟨history, s, reached, done, ledger⟩

end Pipeline

namespace PortScan

variable {s s' : PortScan} {other : PortScanTask}

lemma awaited_become_of_ne {i : ℕ} {task : PairTask} {l : Ledger} (ne : other ≠ .pair i) :
    (({ s with ledger := l } : PortScan).become i task).awaited other = s.awaited other := by
  cases other with
  | starter => rfl
  | pair j =>
    have apart : i ≠ j := fun same => ne (by rw [same])
    simp [awaited, become, List.getElem?_set_ne apart]

lemma awaited_begin (s : PortScan) (target : Endpoint) (rest : List Endpoint) :
    ({ s with unstarted := rest, tasks := s.tasks ++ [.ready target] } : PortScan).awaited other =
      s.awaited other := by
  cases other with
  | starter => rfl
  | pair j =>
    rcases Nat.lt_trichotomy j s.tasks.length with old | rfl | beyond
    · simp [awaited, List.getElem?_append_left old]
    · simp [awaited]
    · have nobody : s.tasks[j]? = none := List.getElem?_eq_none beyond.le
      have nobody' : (s.tasks ++ [PairTask.ready target])[j]? = none :=
        List.getElem?_eq_none (by simpa using beyond)
      simp [awaited, nobody, nobody']

lemma stepsLeft_lt_of_starter (step : s.advance o .starter = some s') :
    s'.stepsLeft < s.stepsLeft ∧ ∀ other, s'.awaited other = s.awaited other := by
  unfold advance at step
  dsimp only at step
  split at step
  · exact absurd step (by simp)
  · rename_i target rest here
    split_ifs at step
    · cases step
      refine ⟨?_, fun other => by cases other <;> rfl⟩
      simp only [stepsLeft, here, List.length_nil, List.length_cons]
      omega
    · cases step
      refine ⟨?_, fun other => awaited_begin s target rest⟩
      simp only [stepsLeft, here, List.length_cons, List.map_append, List.sum_append,
        List.map_cons, List.map_nil, List.sum_singleton, PairTask.stepsLeft]
      omega

theorem machine_bounded (o : Options) : (machine o).Bounded stepsLeft where
  advance {s s' task} step := by
    cases task with
    | starter =>
      obtain ⟨less, same⟩ := stepsLeft_lt_of_starter (o := o) step
      refine ⟨less, fun other _ => congrArg (Option.map (none, ·)) (same other)⟩
    | pair i =>
      obtain ⟨task, l, task', here, move, rfl⟩ := exists_move_of_advance (fun _ _ _ _ => True) step
      refine ⟨stepsLeft_lt_of_pair here move, fun other ne => ?_⟩
      exact congrArg (Option.map (none, ·)) (awaited_become_of_ne ne)
  settle {s s' task outcome call} waits step := by
    cases task with
    | starter => exact absurd waits (by simp [machine, awaited])
    | pair i =>
      obtain ⟨target, waits, -⟩ := Option.map_eq_some_iff.mp waits
      obtain ⟨task, l, task', here, move, rfl⟩ :=
        exists_move_of_settle o (fun _ _ _ _ => True) waits trivial step
      refine ⟨stepsLeft_lt_of_pair here move, fun other ne => ?_⟩
      exact congrArg (Option.map (none, ·)) (awaited_become_of_ne ne)
  answer {s task call} waits outcome := by
    cases task with
    | starter => exact absurd waits (by simp [machine, awaited])
    | pair i =>
      obtain ⟨target, waits, -⟩ := Option.map_eq_some_iff.mp waits
      unfold awaited at waits
      dsimp only at waits
      split at waits
      · rename_i here
        cases outcome <;> simp [machine, step, settle, here]
      · exact absurd waits (by simp)
  setLedger s l task := by
    cases task <;> rfl
  cancel s := by
    simp only [machine, stepsLeft, Ledger.cancel]
    refine ⟨by simp, fun running => by simp [running]⟩
  note s e := rfl
  done {s} idle := by
    have started : s.unstarted = [] := by
      have still : s.advance o .starter = none := (idle .starter List.mem_cons_self).2
      unfold advance at still
      dsimp only at still
      split at still
      · assumption
      · split_ifs at still
    have ended (task) (mem : task ∈ s.tasks) : task = .done := by
      obtain ⟨i, here⟩ := List.mem_iff_getElem?.mp mem
      have mine : .pair i ∈ s.taskList := by
        have bound : i < s.tasks.length := (List.getElem?_eq_some_iff.mp here).1
        simpa [taskList] using bound
      have still : s.advance o (.pair i) = none := (idle _ mine).2
      have unasked := (idle _ mine).1
      cases task with
      | done => rfl
      | ready target => simp [advance, here] at still
      | busy work =>
        cases work with
        | probing target => simp [machine, awaited, here] at unasked
        | ranking | checking | stopping => simp [advance, here, DialWork.advance] at still
    show s.isDone = true
    simpa [isDone, started] using ended

theorem completes_of_play {targets : List Endpoint} {source : Source} {cancelled : Bool}
    {journal : List Event} {probes : Probes}
    (eager : ∀ stage target, (probes.behaviour stage target).hangs = false)
    {alarms : List (ℕ × Alarm)} (few : alarms.length ≤ 2) (callerCancelled : Bool) :
    let start := opened o source cancelled journal targets
    ∃ history s, Reaches o probes.replies start history s ∧ s.isDone = true ∧
      s.ledger = (play (machine o) probes start
        (stepBound targets.length (targets.length + 1)) alarms callerCancelled).1 := by
  intro start
  have enough : start.stepsLeft + alarms.length <
      stepBound targets.length (targets.length + 1) := by
    have flag := Bool.toNat_le (!cancelled)
    simp only [stepsLeft, start, opened, PortScan.start, List.map_nil, List.sum_nil, stepBound]
    omega
  have unasked (task) : (machine o).awaited start task = none := by
    cases task <;> simp [machine, awaited, start, opened, PortScan.start]
  obtain ⟨s, ⟨history, reached⟩, done, ledger⟩ := (machine_bounded o).exists_of_play eager
    unasked enough (keeps_reaches o probes start) ⟨[], .start⟩ callerCancelled
  exact ⟨history, s, reached, done, ledger⟩

end PortScan

namespace Scanner

variable {probes : Probes} {c : Cancellation} {source : Source}

lemma length_alarms_le (o : Options) (c : Cancellation) : (alarms o c).length ≤ 2 := by
  unfold alarms
  cases o.scanTimeout <;> cases c.after <;> simp

/-- If probes never hang then the scanner runs the pipeline of the candidates that it generates
until all tasks have ended. -/
theorem exists_done_of_runPipeline
    (eager : ∀ stage target, (probes.behaviour stage target).hangs = false)
    {candidates : List Endpoint} (generated : (o.generate.run source).1.1 = .ok candidates) :
    let final := (runPipeline o probes c (blank o c source)).1
    ∃ source' journal history s, Pipeline.Reaches o probes.replies
      (.opened o source' c.before journal candidates) history s ∧
      s.isDone = true ∧ s.ledger = final := by
  intro final
  obtain ⟨source', journal, played⟩ := exists_runPipeline_eq o probes c source
  rw [generated] at played
  obtain ⟨history, s, reached, done, ledger⟩ := Pipeline.completes_of_play (o := o) eager
    (length_alarms_le o c) c.before
  exact ⟨source', journal, history, s, reached, done,
    ledger.trans (congrArg Prod.fst played).symm⟩

theorem exists_done_of_runPortScan
    (eager : ∀ stage target, (probes.behaviour stage target).hangs = false) :
    let final := (runPortScan o probes c (blank o c source)).1
    ∃ journal history s, PortScan.Reaches o probes.replies
      (.opened o source c.before journal o.portTargets.endpoints) history s ∧
      s.isDone = true ∧ s.ledger = final := by
  intro final
  obtain ⟨history, s, reached, done, ledger⟩ := PortScan.completes_of_play (o := o) eager
    (length_alarms_le o c) c.before
  exact ⟨_, history, s, reached, done, ledger⟩

/-- A pipeline that the scanner runs without any cancellation dials all candidates that pass the
filters, and its results are the fastest handshakes with them. -/
theorem fastest_of_runPipeline (port : o.port ≠ 0)
    (steadfast : ∀ t, probes.answers none t ≠ .error .cancelled)
    (calm : ∀ stage target, (probes.behaviour stage target).panics = false)
    (eager : ∀ stage target, (probes.behaviour stage target).hangs = false)
    {candidates : List Endpoint} (generated : (o.generate.run source).1.1 = .ok candidates) :
    let final := (runPipeline o probes c (blank o c source)).1
    final.cancelled = false →
      (final.dials.map Dial.candidate : Multiset Endpoint) =
        candidates.filter (probes.answers.survives o) ∧
      final.summary.endpoints.map Measurement.rtt = probes.answers.fastest o candidates := by
  intro final running
  obtain ⟨source', journal, history, s, reached, done, ledger⟩ :=
    exists_done_of_runPipeline (c := c) eager generated
  rw [← show s.ledger = final from ledger] at running ⊢
  have calmed := reached.mono fun _ _ _ _ => Probes.replies_answers calm
  have uncancelled : c.before = false := Pipeline.running_of_reaches calmed running
  rw [uncancelled] at calmed
  exact ⟨Pipeline.dialled_of_isDone calmed done running,
    Pipeline.rtts_of_completes port steadfast ⟨calmed, done, running⟩⟩

end Scanner

end EdgeScan.Scan
