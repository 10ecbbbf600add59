import EdgeScan.Proofs.Candidates
import EdgeScan.Proofs.Scan.Flow
import EdgeScan.Proofs.Scan.PortScan
import EdgeScan.Scan.Scanner

/-!
Scans in virtual time. Tasks take no steps but those of the scan itself, so what every step keeps
holds of the scan that was run to its end. In particular the scanner runs a pipeline through states
that it reaches by its own steps.
-/
namespace EdgeScan.Scan

variable {σ τ : Type} [BEq τ] [Hashable τ]

/-- What probes may answer that behave in a prescribed way, at any time. -/
def Probes.replies (p : Probes) : Replies := fun cancelled stage target outcome =>
  ∃ since now, (p.behaviour stage target).react target since now cancelled = .answers outcome

namespace Machine

/-- A property that is kept by whatever happens to a machine in virtual time. -/
structure Keeps (m : Machine σ τ) (probes : Probes) (P : σ → Prop) : Prop where
  advance {s s' : σ} {task : τ} (here : P s) (step : m.advance s task = some s') : P s'
  settle {s s' : σ} {task : τ} {stage : Option Stage} {target : Endpoint} {outcome : Outcome}
    (here : P s) (waits : m.awaited s task = some (stage, target))
    (answer : probes.replies (m.ledger s).cancelled stage target outcome)
    (step : m.settle s task outcome = some s') : P s'
  cancel {s : σ} (here : P s) : P (m.setLedger s (m.ledger s).cancel)
  note {s : σ} (here : P s) (e : Event) : P (m.setLedger s ((m.ledger s).note e))

namespace Keeps

variable {m : Machine σ τ} {probes : Probes} {P : σ → Prop} {t t' : Timeline σ τ}

lemma stepTask (kept : m.Keeps probes P) {task : τ} (here : P t.state)
    (step : t.stepTask m probes task = some t') : P t'.state := by
  unfold Timeline.stepTask at step
  split at step
  · rename_i stage target waits
    split at step
    · rename_i outcome reaction
      obtain ⟨s', settled, rfl⟩ := Option.map_eq_some_iff.mp step
      exact kept.settle here waits ⟨_, _, reaction⟩ settled
    · exact Option.some.inj step ▸ kept.cancel here
    · exact absurd step (by simp)
  · obtain ⟨s', advanced, rfl⟩ := Option.map_eq_some_iff.mp step
    exact kept.advance here advanced

lemma runTask (kept : m.Keeps probes P) (task : τ) (fuel : ℕ) (here : P t.state) :
    P (t.runTask m probes task fuel).1.state := by
  induction fuel generalizing t with
  | zero => exact here
  | succ fuel ih =>
    unfold Timeline.runTask
    split
    · exact here
    · rename_i step
      exact ih (kept.stepTask here step)

lemma pass (kept : m.Keeps probes P) (fuel : ℕ) (here : P t.state) :
    P (t.pass m probes fuel).1.state := by
  unfold Timeline.pass
  apply List.foldlRecOn (motive := fun found : Timeline σ τ × Bool => P found.1.state) _ _ here
  intro found here task _
  exact kept.runTask task fuel here

lemma settleAll (kept : m.Keeps probes P) (fuel n : ℕ) (here : P t.state) :
    P (t.settleAll m probes fuel n).state := by
  induction n generalizing t with
  | zero => exact here
  | succ n ih =>
    have passed := kept.pass fuel here
    unfold Timeline.settleAll
    dsimp only
    split
    · exact ih passed
    · exact passed

lemma goOff (kept : m.Keeps probes P) (alarm : Alarm) (here : P t.state) :
    P (t.goOff m alarm).state := by
  cases alarm with
  | timeout =>
    by_cases gone : t.cancelled m = true
    · rw [Timeline.goOff, if_pos gone]
      exact here
    · rw [Timeline.goOff, if_neg gone]
      show P ((t.note m .timeoutReached).cancel m).state
      exact kept.cancel (kept.note here .timeoutReached)
  | caller => exact kept.cancel here

lemma ring (kept : m.Keeps probes P) (kinds : List Alarm) (here : P t.state) :
    P (t.ring m kinds).state := by
  unfold Timeline.ring
  apply List.foldlRecOn (motive := fun t : Timeline σ τ => P t.state) _ _ (by exact here)
  intro t here alarm _
  exact kept.goOff alarm here

lemma start (kept : m.Keeps probes P) (fuel : ℕ) (here : P t.state) :
    P (t.start m probes fuel).state := by
  apply kept.ring
  apply List.foldlRecOn (motive := fun t : Timeline σ τ => P t.state) _ _ here
  intro t here task _
  exact kept.runTask task fuel here

lemma go (kept : m.Keeps probes P) (fuel jumps : ℕ) (here : P t.state) :
    P (t.go m probes fuel jumps).state := by
  induction jumps generalizing t with
  | zero => exact here
  | succ jumps ih =>
    have settled := kept.settleAll fuel fuel here
    unfold Timeline.go
    dsimp only
    split
    · exact settled
    · split
      · exact settled
      · exact ih (kept.ring _ settled)

/-- What a machine keeps holds when it has been run to its end. -/
theorem run (kept : m.Keeps probes P) (bound : ℕ) (here : P t.state) :
    P (t.run m probes bound).state := by
  unfold Timeline.run
  exact kept.go bound bound (kept.start bound here)

end Keeps

end Machine

lemma Ledger.cancel_of_cancelled (l : Ledger) (cancelled : l.cancelled = true) :
    l.cancel = l := by
  rw [Ledger.cancel, ← cancelled]

namespace Pipeline

variable {o : Options} {probes : Probes} {start s : Pipeline} {history : List Measurement}

/-- A pipeline in virtual time takes no steps but its own. -/
theorem keeps_reaches (o : Options) (probes : Probes) (start : Pipeline) :
    (machine o).Keeps probes fun s => ∃ history, Reaches o probes.replies start history s where
  advance {s _ task} here step := by
    obtain ⟨history, before⟩ := here
    exact ⟨_, before.step (a := .advance task) trivial step⟩
  settle {s _ task _ _ outcome} here waits answer step := by
    obtain ⟨history, before⟩ := here
    exact ⟨_, before.step (a := .answer task outcome) ⟨_, _, waits, answer⟩ step⟩
  cancel {s} here := by
    obtain ⟨history, before⟩ := here
    cases running : s.ledger.cancelled with
    | true =>
      refine ⟨history, ?_⟩
      show Reaches o probes.replies start history { s with ledger := s.ledger.cancel }
      rw [s.ledger.cancel_of_cancelled running]
      exact before
    | false => exact ⟨_, before.step (a := .cancel) trivial (by simp [Pipeline.step, running]; rfl)⟩
  note {s} here e := by
    obtain ⟨history, before⟩ := here
    exact ⟨history, before.report e⟩

lemma reaches_of_play (start : Pipeline) (bound : ℕ) (alarms : List (ℕ × Alarm))
    (callerCancelled : Bool) : ∃ history s, Reaches o probes.replies start history s ∧
      s.ledger = (play (machine o) probes start bound alarms callerCancelled).1 := by
  obtain ⟨history, reached⟩ := (keeps_reaches o probes start).run
    (t := { state := start, alarms, callerCancelled }) bound ⟨[], .start⟩
  exact ⟨history, _, reached, rfl⟩

lemma Reaches.mono {replies replies' : Replies} (reached : Reaches o replies start history s)
    (same : ∀ cancelled stage target outcome, replies cancelled stage target outcome →
      replies' cancelled stage target outcome) : Reaches o replies' start history s := by
  induction reached with
  | start => exact .start
  | @step _ _ _ a before allowed step ih =>
    refine ih.step ?_ step
    cases a with
    | advance => trivial
    | cancel => trivial
    | answer task outcome =>
      obtain ⟨stage, target, waits, answer⟩ := allowed
      exact ⟨stage, target, waits, same _ _ _ _ answer⟩
  | report before e ih => exact ih.report e

end Pipeline

theorem PortScan.keeps_reaches (o : Options) (probes : Probes) (start : PortScan) :
    (machine o).Keeps probes fun s => ∃ history, Reaches o probes.replies start history s where
  advance {s _ task} here step := by
    obtain ⟨history, before⟩ := here
    exact ⟨_, before.step (a := .advance task) trivial step⟩
  settle here waits answer step := by
    obtain ⟨history, before⟩ := here
    obtain ⟨a, allowed, step, -⟩ := exists_step_of_settle waits answer step
    exact ⟨_, before.step allowed step⟩
  cancel {s} here := by
    obtain ⟨history, before⟩ := here
    cases running : s.ledger.cancelled with
    | true =>
      refine ⟨history, ?_⟩
      show Reaches o probes.replies start history { s with ledger := s.ledger.cancel }
      rw [s.ledger.cancel_of_cancelled running]
      exact before
    | false => exact ⟨_, before.step (a := .cancel) trivial (by simp [PortScan.step, running]; rfl)⟩
  note {s} here e := by
    obtain ⟨history, before⟩ := here
    exact ⟨history, before.report e⟩

namespace Probes

/-- The answers that probes give in the end, unless they panic or the scan is cancelled. -/
def answers (p : Probes) : Answers := fun stage target =>
  (p.behaviour stage target).result.map fun rtt => (target, rtt)

lemma replies_answers {p : Probes}
    (calm : ∀ stage target, (p.behaviour stage target).panics = false) {cancelled : Bool}
    {stage : Option Stage} {target : Endpoint} {outcome : Outcome}
    (answer : p.replies cancelled stage target outcome) :
    p.answers.replies cancelled stage target outcome := by
  obtain ⟨since, now, reaction⟩ := answer
  have own :
      p.answers.replies cancelled stage target ((p.behaviour stage target).outcome target) := by
    unfold Behaviour.outcome
    cases h : (p.behaviour stage target).result with
    | ok rtt => simp [Answers.replies, answers, h, Except.map]
    | error e => simp [Answers.replies, answers, h, Except.map]
  unfold Behaviour.react at reaction
  rw [calm, if_neg Bool.false_ne_true] at reaction
  split at reaction
  · exact absurd reaction (by simp)
  · split at reaction
    · exact absurd reaction (by simp)
    · split at reaction
      · exact Reaction.answers.inj reaction ▸ own
      · split_ifs at reaction with gone late
        · exact Reaction.answers.inj reaction ▸ .inr ⟨gone, rfl⟩
        · exact Reaction.answers.inj reaction ▸ own

end Probes

namespace Scanner

variable {o : Options} {probes : Probes} {c : Cancellation} {source : Source}

/-- The ledger that a run begins with. -/
def blank (o : Options) (c : Cancellation) (source : Source) : Ledger :=
  { Ledger.start o source with cancelled := c.before }

lemma foldl_note (l : Ledger) (events : List Event) :
    events.foldl Ledger.note l = { l with journal := events.reverse ++ l.journal } := by
  induction events generalizing l with
  | nil => rfl
  | cons e rest ih => simp [ih, Ledger.note]

theorem exists_runPipeline_eq (o : Options) (probes : Probes) (c : Cancellation)
    (source : Source) :
    ∃ source' journal, match (o.generate.run source).1.1 with
      | .error _ =>
        (runPipeline o probes c (blank o c source)).1 = { blank o c source' with journal }
      | .ok candidates => runPipeline o probes c (blank o c source) =
          play (Pipeline.machine o) probes (.opened o source' c.before journal candidates)
            (stepBound candidates.length (3 * width o + 1)) (alarms o c) c.before := by
  generalize hdrawn : o.generate.run source = drawn at *
  obtain ⟨⟨result, events⟩, source'⟩ := drawn
  have hdrawn' : (do (← CandidatePlan.draw o).generate : Draw _).run (blank o c source).source =
      ((result, events), source') := hdrawn
  unfold runPipeline
  rw [hdrawn']
  dsimp only
  rw [foldl_note]
  cases result with
  | error e => exact ⟨source', .generationFailed e :: (events.reverse ++ []), rfl⟩
  | ok candidates =>
    exact ⟨source', .generated candidates.length :: (events.reverse ++ []), rfl⟩

/-- What the scanner plays is a run of the pipeline. -/
theorem reaches_of_runPipeline (o : Options) (probes : Probes) (c : Cancellation)
    (source : Source) :
    let final := (runPipeline o probes c (blank o c source)).1
    match (o.generate.run source).1.1 with
    | .error _ => final.dials = []
    | .ok candidates => ∃ source' journal history s, Pipeline.Reaches o probes.replies
        (.opened o source' c.before journal candidates) history s ∧ s.ledger = final := by
  intro final
  obtain ⟨source', journal, played⟩ := exists_runPipeline_eq o probes c source
  cases result : (o.generate.run source).1.1 with
  | error e =>
    rw [result] at played
    exact congrArg Ledger.dials played
  | ok candidates =>
    rw [result] at played
    obtain ⟨history, s, reached, ledger⟩ := Pipeline.reaches_of_play (o := o)
      (.opened o source' c.before journal candidates)
      (stepBound candidates.length (3 * width o + 1)) (alarms o c) c.before
    exact ⟨source', journal, history, s, reached, ledger.trans (congrArg Prod.fst played).symm⟩

/-- Whatever probes do in virtual time, short of panicking, the scanner dials only candidates that
it generated and that pass every filter that is switched on. -/
theorem dialled_le_of_runPipeline
    (calm : ∀ stage target, (probes.behaviour stage target).panics = false)
    {candidates : List Endpoint} (generated : (o.generate.run source).1.1 = .ok candidates) :
    let final := (runPipeline o probes c (blank o c source)).1
    (final.dials.map Dial.candidate : Multiset Endpoint) ≤
      candidates.filter (probes.answers.survives o) ∧ ∀ d ∈ final.dials, d.IsFaithful := by
  have bridge := reaches_of_runPipeline o probes c source
  rw [generated] at bridge
  obtain ⟨source', journal, history, s, reached, ledger⟩ := bridge
  have calmed := reached.mono fun _ _ _ _ => Probes.replies_answers calm
  rw [← ledger]
  exact ⟨Pipeline.dialled_le calmed, Pipeline.isFaithful_of_reaches calmed⟩

end Scanner

end EdgeScan.Scan
