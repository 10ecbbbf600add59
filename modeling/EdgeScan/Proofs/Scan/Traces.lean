import EdgeScan.Proofs.Scan.Runs

/-!
Runs with a log. The log holds every action together with the state in which it is taken, so that
it tells which task did what. Reports of the surroundings are no actions and leave no entry.
-/
namespace EdgeScan.Scan.Pipeline

/-- The states that runs lead to, with the log of the run, the earliest action first. -/
inductive Trace (o : Options) (replies : Replies) (start : Pipeline) :
    List (Pipeline × PipelineAction) → Pipeline → Prop
  | start : Trace o replies start [] start
  | step {log : List (Pipeline × PipelineAction)} {s s' : Pipeline} {a : PipelineAction}
      (before : Trace o replies start log s) (allowed : s.Allows o replies a)
      (step : s.step o a = some s') : Trace o replies start (log ++ [(s, a)]) s'
  | report {log : List (Pipeline × PipelineAction)} {s : Pipeline}
      (before : Trace o replies start log s) (e : Event) :
      Trace o replies start log { s with ledger := s.ledger.note e }

variable {o : Options} {replies : Replies} {start s s' : Pipeline}
  {log : List (Pipeline × PipelineAction)} {history later : List Measurement}

/-- The results that a run enters stand in its log. -/
theorem Trace.reaches (trace : Trace o replies start log s) :
    Reaches o replies start (log.flatMap fun (s, a) => s.entered a) s := by
  induction trace with
  | start => exact .start
  | step before allowed step ih =>
    rw [List.flatMap_append, List.flatMap_singleton]
    exact ih.step allowed step
  | report before e ih => exact ih.report e

lemma Reaches.exists_trace (reached : Reaches o replies start history s) :
    ∃ log, Trace o replies start log s := by
  induction reached with
  | start => exact ⟨[], .start⟩
  | step before allowed step ih =>
    obtain ⟨log, trace⟩ := ih
    exact ⟨_, trace.step allowed step⟩
  | report before e ih =>
    obtain ⟨log, trace⟩ := ih
    exact ⟨log, trace.report e⟩

theorem Reaches.trans (reached : Reaches o replies start history s)
    (further : Reaches o replies s later s') :
    Reaches o replies start (history ++ later) s' := by
  induction further with
  | start => simpa using reached
  | step before allowed step ih =>
    rw [← List.append_assoc]
    exact ih.step allowed step
  | report before e ih => exact ih.report e

end EdgeScan.Scan.Pipeline
