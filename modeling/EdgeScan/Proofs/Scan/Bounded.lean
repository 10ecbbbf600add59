import EdgeScan.Proofs.Scan.Timeline

/-!
Machines with a limited number of steps in virtual time. Time jumps on only to a moment at which a
step becomes possible or an alarm goes off. So a bound that exceeds the steps and the alarms is
never used up, and when the machine is over nothing but hanging probes can have kept tasks from
ending.
-/
namespace EdgeScan.Scan

variable {σ τ : Type} [BEq τ] [Hashable τ]

namespace Machine

/-- The laws of a machine whose tasks have only a limited number of steps left. -/
structure Bounded (m : Machine σ τ) (steps : σ → ℕ) : Prop where
  advance {s s' : σ} {task : τ} (step : m.advance s task = some s') :
    steps s' < steps s ∧ ∀ other ≠ task, m.awaited s' other = m.awaited s other
  settle {s s' : σ} {task : τ} {outcome : Outcome} {call : Option Stage × Endpoint}
    (waits : m.awaited s task = some call) (step : m.settle s task outcome = some s') :
    steps s' < steps s ∧ ∀ other ≠ task, m.awaited s' other = m.awaited s other
  /-- A probe that is awaited may answer anything. -/
  answer {s : σ} {task : τ} {call : Option Stage × Endpoint}
    (waits : m.awaited s task = some call) (outcome : Outcome) :
    (m.settle s task outcome).isSome
  setLedger (s : σ) (l : Ledger) (task : τ) : m.awaited (m.setLedger s l) task = m.awaited s task
  cancel (s : σ) : steps (m.setLedger s (m.ledger s).cancel) ≤ steps s ∧
    ((m.ledger s).cancelled = false → steps (m.setLedger s (m.ledger s).cancel) < steps s)
  note (s : σ) (e : Event) : steps (m.setLedger s ((m.ledger s).note e)) = steps s
  done {s : σ} (idle : ∀ task ∈ m.tasks s, m.awaited s task = none ∧ m.advance s task = none) :
    m.isDone s = true

end Machine

namespace Timeline

/-- It is known since when tasks wait. -/
def Tracked (m : Machine σ τ) (t : Timeline σ τ) : Prop :=
  ∀ task call, m.awaited t.state task = some call → task ∈ t.since

/-- No task can take a step at present. -/
def Stuck (m : Machine σ τ) (probes : Probes) (t : Timeline σ τ) : Prop :=
  ∀ task ∈ m.tasks t.state, t.stepTask m probes task = none

/-- All tasks have ended, or none can go on and no moment comes at which one could. -/
def Halted (m : Machine σ τ) (probes : Probes) (t : Timeline σ τ) : Prop :=
  m.isDone t.state = true ∨ t.Stuck m probes ∧ t.nextTime m probes = none

/-- What happens while time stands still: nothing, or steps are used up. -/
structure Proceeds (m : Machine σ τ) (steps : σ → ℕ) (t t' : Timeline σ τ) : Prop where
  alarms : t'.alarms = t.alarms
  steps : t' = t ∨ steps t'.state < steps t.state
  tracked : t.Tracked m → t'.Tracked m

namespace Proceeds

variable {m : Machine σ τ} {steps : σ → ℕ} {t t' t'' : Timeline σ τ}

lemma refl (m : Machine σ τ) (steps : σ → ℕ) (t : Timeline σ τ) : Proceeds m steps t t :=
  ⟨rfl, .inl rfl, id⟩

lemma trans (first : Proceeds m steps t t') (second : Proceeds m steps t' t'') :
    Proceeds m steps t t'' where
  alarms := second.alarms.trans first.alarms
  steps := by
    rcases second.steps with rfl | less
    · exact first.steps
    · rcases first.steps with rfl | less'
      · exact .inr less
      · exact .inr (less.trans less')
  tracked := second.tracked ∘ first.tracked

lemma steps_le (proceeds : Proceeds m steps t t') : steps t'.state ≤ steps t.state := by
  rcases proceeds.steps with rfl | less
  · exact le_rfl
  · exact less.le

end Proceeds

end Timeline

/-- What a probe's reaction tells: it cancels only a scan that goes on, it waits for no moment only
if it hangs, and if it waits for a moment then it answers at that moment. -/
theorem Behaviour.react_spec (b : Behaviour) (target : Endpoint) (since now : ℕ)
    (cancelled : Bool) :
    match b.react target since now cancelled with
    | .answers _ => True
    | .cancelsScan => cancelled = false
    | .waits none => b.hangs = true
    | .waits (some time) => b.react target since time cancelled = .answers (b.outcome target) := by
  unfold react
  cases panics : b.panics with
  | true => simp
  | false =>
    cases cancels : b.cancels && !cancelled with
    | true => simpa using (Bool.and_eq_true_iff.mp cancels).2
    | false =>
      cases hangs : b.hangs && !cancelled with
      | true => simpa using (Bool.and_eq_true_iff.mp hangs).1
      | false =>
        cases delay : b.delay with
        | none => simp
        | some d =>
          cases cancelled with
          | true => simp
          | false => by_cases late : since + d.nanos ≤ now <;> simp [late]

lemma Timeline.reaction_spec (m : Machine σ τ) (probes : Probes) (t : Timeline σ τ) (task : τ)
    (stage : Option Stage) (target : Endpoint) :
    match t.reaction m probes task stage target with
    | .answers _ => True
    | .cancelsScan => (m.ledger t.state).cancelled = false
    | .waits none => (probes.behaviour stage target).hangs = true
    | .waits (some time) => (probes.behaviour stage target).react target
        (t.since.getD task t.now) time (t.cancelled m) =
          .answers ((probes.behaviour stage target).outcome target) :=
  Behaviour.react_spec _ _ _ _ _

namespace Machine.Bounded

variable [LawfulBEq τ] {m : Machine σ τ} {steps : σ → ℕ} {probes : Probes} {t t' : Timeline σ τ}

lemma proceeds_of_stepTask (bounded : m.Bounded steps) {task : τ}
    (step : t.stepTask m probes task = some t') :
    t.Proceeds m steps t' ∧ steps t'.state < steps t.state := by
  unfold Timeline.stepTask at step
  split at step
  · rename_i stage target waits
    split at step
    · obtain ⟨s', settled, rfl⟩ := Option.map_eq_some_iff.mp step
      obtain ⟨less, others⟩ := bounded.settle waits settled
      refine ⟨⟨rfl, .inr less, fun tracked other call waits' => ?_⟩, less⟩
      by_cases own : other = task
      · exact own ▸ tracked task _ waits
      · exact tracked other call ((others other own).symm.trans waits')
    · rename_i reaction
      have running := t.reaction_spec m probes task stage target
      rw [reaction] at running
      cases step
      have less := (bounded.cancel t.state).2 running
      refine ⟨⟨rfl, .inr less, fun tracked other call waits' => ?_⟩, less⟩
      exact tracked other call ((bounded.setLedger _ _ _).symm.trans waits')
    · exact absurd step (by simp)
  · obtain ⟨s', advanced, rfl⟩ := Option.map_eq_some_iff.mp step
    obtain ⟨less, others⟩ := bounded.advance advanced
    refine ⟨⟨rfl, .inr less, fun tracked other call waits' => ?_⟩, less⟩
    by_cases own : other = task
    · exact own ▸ Std.HashMap.mem_insert_self
    · have known := tracked other call ((others other own).symm.trans waits')
      exact Std.HashMap.mem_insert.mpr (.inr known)

theorem runTask (bounded : m.Bounded steps) (task : τ) {fuel : ℕ} (enough : steps t.state < fuel) :
    let r := t.runTask m probes task fuel
    t.Proceeds m steps r.1 ∧ r.1.stepTask m probes task = none ∧
      (r.2 = true → steps r.1.state < steps t.state) ∧ (r.2 = false → r.1 = t) := by
  induction fuel generalizing t with
  | zero => exact absurd enough (Nat.not_lt_zero _)
  | succ fuel ih =>
    intro r
    cases step : t.stepTask m probes task with
    | none =>
      have stays : r = (t, false) := by simp [r, Timeline.runTask, step]
      rw [stays]
      exact ⟨.refl m steps t, step, by simp, fun _ => rfl⟩
    | some t' =>
      obtain ⟨first, less⟩ := bounded.proceeds_of_stepTask step
      obtain ⟨later, still, -, -⟩ := ih (t := t') (by omega)
      have goesOn : r = ((t'.runTask m probes task fuel).1, true) := by
        simp [r, Timeline.runTask, step]
      rw [goesOn]
      exact ⟨first.trans later, still, fun _ => later.steps_le.trans_lt less, by simp⟩

lemma serve (bounded : m.Bounded steps) (probes : Probes) {fuel : ℕ} (tasks : List τ) (moved : Bool)
    (enough : steps t.state < fuel) :
    let r := tasks.foldl (fun (t, moved) task =>
      let (t, active) := t.runTask m probes task fuel
      (t, moved || active)) (t, moved)
    t.Proceeds m steps r.1 ∧ (r.2 = true → moved = true ∨ steps r.1.state < steps t.state) ∧
      (r.2 = false → moved = false ∧ r.1 = t ∧
        ∀ task ∈ tasks, t.stepTask m probes task = none) := by
  induction tasks generalizing t moved with
  | nil => exact ⟨.refl m steps t, .inl, fun still => ⟨still, rfl, by simp⟩⟩
  | cons task rest ih =>
    intro r
    have served : t.Proceeds m steps (t.runTask m probes task fuel).1 ∧ _ :=
      bounded.runTask task enough
    obtain ⟨first, still, active, idle⟩ := served
    have fewer := first.steps_le
    obtain ⟨later, moves, rests⟩ := ih (t := (t.runTask m probes task fuel).1)
      (moved || (t.runTask m probes task fuel).2) (by omega)
    refine ⟨first.trans later, fun happened => ?_, fun nothing => ?_⟩
    · rcases moves happened with before | less
      · rcases Bool.or_eq_true_iff.mp before with before | own
        · exact .inl before
        · exact .inr (later.steps_le.trans_lt (active own))
      · exact .inr (less.trans_le fewer)
    · obtain ⟨before, same, others⟩ := rests nothing
      obtain ⟨before, own⟩ := Bool.or_eq_false_iff.mp before
      have unmoved := idle own
      rw [unmoved] at still others
      exact ⟨before, same.trans unmoved, List.forall_mem_cons.mpr ⟨still, others⟩⟩

lemma pass (bounded : m.Bounded steps) (probes : Probes) {fuel : ℕ}
    (enough : steps t.state < fuel) :
    t.Proceeds m steps (t.pass m probes fuel).1 ∧
      ((t.pass m probes fuel).2 = true →
        steps (t.pass m probes fuel).1.state < steps t.state) ∧
      ((t.pass m probes fuel).2 = false →
        (t.pass m probes fuel).1 = t ∧ t.Stuck m probes) := by
  obtain ⟨first, moves, rests⟩ := bounded.serve probes (m.tasks t.state) false enough
  exact ⟨first, fun moved => (moves moved).resolve_left (by simp), fun still => (rests still).2⟩

theorem settleAll (bounded : m.Bounded steps) (probes : Probes) {fuel : ℕ} (n : ℕ)
    (enough : steps t.state < fuel) (rounds : steps t.state < n) :
    t.Proceeds m steps (t.settleAll m probes fuel n) ∧
      (t.settleAll m probes fuel n).Stuck m probes := by
  induction n generalizing t with
  | zero => exact absurd rounds (Nat.not_lt_zero _)
  | succ n ih =>
    obtain ⟨first, moves, rests⟩ := bounded.pass probes enough
    unfold Timeline.settleAll
    dsimp only
    split
    · rename_i moved
      have less := moves moved
      obtain ⟨later, stuck⟩ := ih (t := (t.pass m probes fuel).1) (by omega) (by omega)
      exact ⟨first.trans later, stuck⟩
    · rename_i moved
      obtain ⟨same, stuck⟩ := rests (by simpa using moved)
      rw [same]
      exact ⟨.refl m steps t, stuck⟩

omit [LawfulBEq τ] in
lemma goOff (bounded : m.Bounded steps) (alarm : Alarm) :
    (t.goOff m alarm).alarms = t.alarms ∧ (t.goOff m alarm).since = t.since ∧
      ∀ task, m.awaited (t.goOff m alarm).state task = m.awaited t.state task := by
  cases alarm with
  | timeout =>
    by_cases gone : t.cancelled m = true
    · rw [Timeline.goOff, if_pos gone]
      exact ⟨rfl, rfl, fun _ => rfl⟩
    · rw [Timeline.goOff, if_neg gone]
      exact ⟨rfl, rfl, fun task => (bounded.setLedger _ _ task).trans (bounded.setLedger _ _ task)⟩
  | caller => exact ⟨rfl, rfl, fun task => bounded.setLedger _ _ task⟩

omit [LawfulBEq τ] in
lemma goOffAll (bounded : m.Bounded steps) (due : List Alarm) :
    (due.foldl (Timeline.goOff m) t).alarms = t.alarms ∧
      (due.foldl (Timeline.goOff m) t).since = t.since ∧
      ∀ task, m.awaited (due.foldl (Timeline.goOff m) t).state task = m.awaited t.state task := by
  induction due generalizing t with
  | nil => exact ⟨rfl, rfl, fun _ => rfl⟩
  | cons alarm rest ih =>
    obtain ⟨alarms, since, awaited⟩ := bounded.goOff (t := t) alarm
    obtain ⟨alarms', since', awaited'⟩ := ih (t := t.goOff m alarm)
    exact ⟨alarms'.trans alarms, since'.trans since,
      fun task => (awaited' task).trans (awaited task)⟩

omit [LawfulBEq τ] in
theorem ring (bounded : m.Bounded steps) (kinds : List Alarm) :
    (t.Tracked m → (t.ring m kinds).Tracked m) ∧
      ((t.ring m kinds).alarms.length < t.alarms.length ∨ t.ring m kinds = t ∧
        ∀ alarm ∈ t.alarms, alarm.1 ≤ t.now → alarm.2 ∉ kinds) := by
  unfold Timeline.ring
  rw [List.partition_eq_filter_filter]
  dsimp only
  generalize hlater : t.alarms.filter _ = later
  generalize hdue : (t.alarms.filter _).map Prod.snd = due
  obtain ⟨alarms, since, awaited⟩ := bounded.goOffAll (t := { t with alarms := later }) due
  refine ⟨fun tracked task call waits => ?_, ?_⟩
  · rw [since]
    exact tracked task call ((awaited task).symm.trans waits)
  · by_cases silent : ∀ alarm ∈ t.alarms, alarm.1 ≤ t.now → alarm.2 ∉ kinds
    · right
      have quiet : due = [] := by
        rw [← hdue, List.map_eq_nil_iff, List.filter_eq_nil_iff]
        intro alarm mem
        simpa using silent alarm mem
      have all : later = t.alarms := by
        rw [← hlater, List.filter_eq_self]
        intro alarm mem
        simpa [Decidable.imp_iff_not_or] using silent alarm mem
      rw [quiet, all]
      exact ⟨rfl, silent⟩
    · left
      push Not at silent
      obtain ⟨alarm, mem, past, known⟩ := silent
      rw [alarms, ← hlater, List.length_filter_lt_length_iff_exists]
      exact ⟨alarm, mem, by simp [past, known]⟩

omit [BEq τ] [Hashable τ] [LawfulBEq τ] in
lemma keeps_steps_le (bounded : m.Bounded steps) (probes : Probes) (bound : ℕ) :
    m.Keeps probes fun s => steps s ≤ bound where
  advance here step := (bounded.advance step).1.le.trans here
  settle here waits _ step := (bounded.settle waits step).1.le.trans here
  cancel here := (bounded.cancel _).1.trans here
  note here e := (bounded.note _ e).le.trans here

/-- At the moment that a task waits for it can go on. -/
theorem not_stuck_of_wakes (bounded : m.Bounded steps) (tracked : t.Tracked m) {time : ℕ}
    (wakes : time ∈ t.wakeTimes m probes) :
    ¬Timeline.Stuck m probes { t with now := time } := by
  intro stuck
  obtain ⟨task, mine, wakes⟩ := List.mem_filterMap.mp wakes
  split at wakes
  · rename_i stage target waits
    split at wakes
    · rename_i deadline reaction
      subst wakes
      have moment := t.reaction_spec m probes task stage target
      rw [reaction] at moment
      have since : t.since.getD task t.now = t.since.getD task time := by
        rw [Std.HashMap.getD_eq_getD_getElem?, Std.HashMap.getD_eq_getD_getElem?,
          Std.HashMap.getElem?_eq_some_getElem (tracked task _ waits)]
        rfl
      have answers : Timeline.reaction m probes { t with now := time } task stage target =
          .answers ((probes.behaviour stage target).outcome target) := by
        rw [since] at moment
        exact moment
      have settles := bounded.answer waits ((probes.behaviour stage target).outcome target)
      have still := stuck task mine
      unfold Timeline.stepTask at still
      simp only [waits, answers, Option.map_eq_none_iff] at still
      simp [still] at settles
    · exact absurd wakes (by simp)
  · exact absurd wakes (by simp)

/-- When time jumps on because no task can take a step, an alarm goes off or a task can go on. -/
theorem jump (bounded : m.Bounded steps) (tracked : t.Tracked m) {time : ℕ}
    (next : t.nextTime m probes = some time) :
    let r := Timeline.ring m [.timeout, .caller] { t with now := time }
    steps r.state ≤ steps t.state ∧ r.Tracked m ∧
      (r.alarms.length < t.alarms.length ∨
        r.alarms.length = t.alarms.length ∧ ¬r.Stuck m probes) := by
  intro r
  obtain ⟨kept, rings⟩ := bounded.ring (t := { t with now := time }) [.timeout, .caller]
  refine ⟨(bounded.keeps_steps_le probes _).ring (t := { t with now := time }) _ le_rfl,
    kept tracked, rings.imp_right ?_⟩
  rintro ⟨same, silent⟩
  have here : r = { t with now := time } := same
  rw [here]
  refine ⟨rfl, ?_⟩
  rcases List.mem_append.mp (List.min?_mem next) with wakes | rings
  · exact bounded.not_stuck_of_wakes tracked wakes
  · obtain ⟨⟨moment, alarm⟩, mem, rfl⟩ := List.mem_map.mp rings
    exact absurd (silent _ mem le_rfl) (by cases alarm <;> simp)

/-- As long as there is fuel, time jumps on until a scan is over or waits for nothing that has a
moment. Every jump is made for an alarm or for a step. -/
theorem go (bounded : m.Bounded steps) {fuel : ℕ} (jumps : ℕ) (tracked : t.Tracked m)
    (enough : steps t.state < fuel)
    (left : steps t.state + t.alarms.length < jumps ∨
      steps t.state + t.alarms.length ≤ jumps ∧ ¬t.Stuck m probes) :
    (t.go m probes fuel jumps).Halted m probes := by
  induction jumps generalizing t with
  | zero =>
    exfalso
    obtain ⟨used, free⟩ := left.resolve_left (Nat.not_lt_zero _)
    -- there is nothing left to use up, so the task that could go on would have no step to take
    refine free fun task _ => ?_
    by_contra goesOn
    obtain ⟨t', step⟩ := Option.ne_none_iff_exists'.mp goesOn
    have less := (bounded.proceeds_of_stepTask step).2
    omega
  | succ jumps ih =>
    obtain ⟨settled, stuck⟩ := bounded.settleAll probes fuel enough enough
    have fewer := settled.steps_le
    have alarms := congrArg List.length settled.alarms
    have left' : steps (t.settleAll m probes fuel fuel).state +
        (t.settleAll m probes fuel fuel).alarms.length ≤ jumps := by
      rcases left with few | ⟨few, free⟩
      · omega
      · rcases settled.steps with unmoved | less
        · exact absurd (unmoved ▸ stuck) free
        · omega
    unfold Timeline.go
    dsimp only
    split
    · rename_i done
      exact .inl done
    · split
      · rename_i never
        exact .inr ⟨stuck, never⟩
      · rename_i time next
        obtain ⟨fewer', known, ready⟩ := bounded.jump (settled.tracked tracked) next
        refine ih known (fewer'.trans_lt (by omega)) ?_
        rcases ready with rings | ⟨same, free⟩
        · left
          omega
        · right
          exact ⟨by omega, free⟩

lemma start (bounded : m.Bounded steps) (probes : Probes) {fuel : ℕ} (tracked : t.Tracked m)
    (enough : steps t.state < fuel) :
    (t.start m probes fuel).Tracked m ∧ steps (t.start m probes fuel).state ≤ steps t.state ∧
      (t.start m probes fuel).alarms.length ≤ t.alarms.length := by
  have opened : t.Proceeds m steps
      (m.opening.foldl (fun t task => (t.runTask m probes task fuel).1) t) := by
    refine List.foldlRecOn _ _ (.refl m steps t) ?_
    intro t' before task _
    exact before.trans (bounded.runTask task (before.steps_le.trans_lt enough)).1
  unfold Timeline.start
  generalize m.opening.foldl _ t = t' at opened
  obtain ⟨known, rings⟩ := bounded.ring (t := t') [.timeout]
  have fewer := (bounded.keeps_steps_le probes (steps t'.state)).ring (t := t') [.timeout] le_rfl
  refine ⟨known (opened.tracked tracked), fewer.trans opened.steps_le, ?_⟩
  rcases rings with rings | ⟨silent, -⟩
  · exact rings.le.trans (congrArg List.length opened.alarms).le
  · rw [silent]
    exact (congrArg List.length opened.alarms).le

/-- A scan that is played within a sufficient bound is over in the end. -/
theorem run (bounded : m.Bounded steps) (probes : Probes) {bound : ℕ} (tracked : t.Tracked m)
    (enough : steps t.state + t.alarms.length < bound) : (t.run m probes bound).Halted m probes := by
  obtain ⟨known, fewer, alarms⟩ := bounded.start probes tracked
    (show steps t.state < bound by omega)
  exact bounded.go bound known (by omega) (.inl (by omega))

omit [LawfulBEq τ] in
theorem isDone_of_halted (bounded : m.Bounded steps)
    (eager : ∀ stage target, (probes.behaviour stage target).hangs = false)
    (halted : t.Halted m probes) : m.isDone t.state = true := by
  rcases halted with done | ⟨stuck, never⟩
  · exact done
  · refine bounded.done fun task mine => ?_
    have idle : m.awaited t.state task = none := by
      by_contra waits
      obtain ⟨⟨stage, target⟩, waits⟩ := Option.ne_none_iff_exists'.mp waits
      have still := stuck task mine
      unfold Timeline.stepTask at still
      simp only [waits] at still
      cases reaction : t.reaction m probes task stage target with
      | answers outcome =>
        have settles := bounded.answer waits outcome
        simp only [reaction, Option.map_eq_none_iff] at still
        simp [still] at settles
      | cancelsScan => simp [reaction] at still
      | waits deadline =>
        cases deadline with
        | none =>
          have hangs := t.reaction_spec m probes task stage target
          rw [reaction] at hangs
          simp [eager] at hangs
        | some time =>
          have wakes : time ∈ t.wakeTimes m probes :=
            List.mem_filterMap.mpr ⟨task, mine, by simp only [waits, reaction]⟩
          have moments := List.append_eq_nil_iff.mp (List.min?_eq_none_iff.mp never)
          rw [moments.1] at wakes
          exact absurd wakes List.not_mem_nil
    have still := stuck task mine
    unfold Timeline.stepTask at still
    rw [idle] at still
    exact ⟨idle, Option.map_eq_none_iff.mp still⟩

/-- If probes never hang then a machine that is played within a sufficient bound ends all its tasks,
and keeps what its steps keep. -/
theorem exists_of_play (bounded : m.Bounded steps)
    (eager : ∀ stage target, (probes.behaviour stage target).hangs = false) {start : σ}
    (idle : ∀ task, m.awaited start task = none) {alarms : List (ℕ × Alarm)} {bound : ℕ}
    (enough : steps start + alarms.length < bound) {P : σ → Prop} (kept : m.Keeps probes P)
    (here : P start) (callerCancelled : Bool) :
    ∃ s, P s ∧ m.isDone s = true ∧
      m.ledger s = (play m probes start bound alarms callerCancelled).1 := by
  let t : Timeline σ τ := { state := start, alarms, callerCancelled }
  have tracked : t.Tracked m := fun task call waits =>
    absurd waits (by simp [show m.awaited t.state task = none from idle task])
  have halted := bounded.run probes tracked enough
  exact ⟨_, kept.run bound here, bounded.isDone_of_halted eager halted, rfl⟩

end Machine.Bounded

end EdgeScan.Scan
