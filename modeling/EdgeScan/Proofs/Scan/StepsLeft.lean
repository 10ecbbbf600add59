import EdgeScan.Proofs.Scan.Traces
import EdgeScan.Proofs.Scan.Valuation

/-!
The steps that a pipeline has left. Candidates, workers and the feed are worth the steps that are
still to be taken for them, and every action uses up one at least. So every run is finite.
-/
namespace EdgeScan.Scan

namespace FilterWork

/-- A bound on the steps that a worker still takes before the next candidate, if each candidate that
it sends on causes `behind` more of them. -/
def stepsLeft (behind : ℕ) : Worker FilterWork → ℕ
  | .done => 0
  | .receiving => 1
  | .waiting => 2
  | .busy (.sending _) => behind + 3
  | .busy (.probing _) => behind + 4
  | .received _ => behind + 5

/-- A bound on the steps that a filter stage and what it sends on still take. -/
def stepsAt (behind : ℕ) (p : Pool FilterWork) : ℕ :=
  p.worth (fun _ => behind + 5) (stepsLeft behind)

end FilterWork

namespace DialWork

def stepsLeft : Worker DialWork → ℕ
  | .done => 0
  | .receiving => 1
  | .waiting => 2
  | .busy .stopping => 3
  | .busy .checking => 4
  | .busy (.ranking _) => 5
  | .busy (.probing _) => 6
  | .received _ => 7

def stepsAt (p : Pool DialWork) : ℕ := p.worth (fun _ => 7) stepsLeft

end DialWork

/-- A bound on the steps of a pipeline. A candidate in front of the handshake workers causes 7 of
them, 5 more in front of each filter, and one more in the feed. -/
def Pipeline.stepsLeft (s : Pipeline) : ℕ :=
  (!s.ledger.cancelled).toNat + (s.feed.map fun rest => 18 * rest.length + 1).getD 0 +
    FilterWork.stepsAt 12 s.icmp + FilterWork.stepsAt 7 s.tcp + DialWork.stepsAt s.dial

namespace Pool

variable {Work : Type} {p p' : Pool Work} {i : ℕ} {cancelled more : Bool}

/-- What a worker does at its channel uses up a step. -/
theorem worth_lt_of_turn {channel : ℕ} {worker : Worker Work → ℕ}
    (turn : p.Turn i cancelled more p') (done : worker .done = 0)
    (receiving : worker .receiving = 1) (waiting : worker .waiting = 2)
    (received : ∀ c, worker (.received c) = channel) :
    p'.worth (fun _ => channel) worker < p.worth (fun _ => channel) worker := by
  cases turn with
  | enter here =>
    obtain ⟨rest, hold, hnew⟩ := exists_worth_become (fun _ => channel) worker here
    rw [hold, hnew]
    omega
  | @take c inbox here running next =>
    obtain ⟨rest, hold, hnew⟩ := exists_sum_set worker here
    simp only [worth, become, next, List.map_cons, List.sum_cons, hold, hnew, receiving, received]
    omega
  | leave here idle =>
    obtain ⟨rest, hold, hnew⟩ := exists_worth_become (fun _ => channel) worker here
    rw [hold, hnew]
    rcases idle with rfl | rfl <;> omega

end Pool

variable {o : Options} {replies : Replies} {i : ℕ} {more : Bool}

namespace FilterWork

lemma stepsAt_push (behind : ℕ) (p : Pool FilterWork) (l : List Endpoint) :
    stepsAt behind (p.push l) = (behind + 5) * l.length + stepsAt behind p := by
  simp [stepsAt, Pool.worth_push, mul_comm]

lemma stepsAt_start (behind size : ℕ) : stepsAt behind (.start size) = 2 * size := by
  simp [stepsAt, Pool.worth, Pool.start, stepsLeft, mul_comm]

theorem Move.stepsAt_lt {stage : Stage} {l : Ledger} {p : Pool FilterWork} {room : Room}
    {n : FilterStep} (behind : ℕ) (move : Move o replies stage l p i more room n) :
    stepsAt behind n.pool + behind * n.sent.length < stepsAt behind p := by
  cases move with
  | turn turn => exact Pool.worth_lt_of_turn turn rfl rfl rfl fun _ => rfl
  | call here | skip here | send here | quit here | pass here | drop here | fail here
  | panic here =>
    obtain ⟨rest, hold, hnew⟩ :=
      Pool.exists_worth_become (fun _ => behind + 5) (stepsLeft behind) here
    simp only [stepsAt, hold, hnew, stepsLeft, List.length_cons, List.length_nil]
    omega

end FilterWork

namespace DialWork

lemma stepsAt_push (p : Pool DialWork) (l : List Endpoint) :
    stepsAt (p.push l) = 7 * l.length + stepsAt p := by
  simp [stepsAt, Pool.worth_push, mul_comm]

lemma stepsAt_start (size : ℕ) : stepsAt (.start size) = 2 * size := by
  simp [stepsAt, Pool.worth, Pool.start, stepsLeft, mul_comm]

theorem Move.stepsAt_lt {l l' : Ledger} {p p' : Pool DialWork} {entered : List Measurement}
    (move : Move o replies l p i more entered l' p') : stepsAt p' < stepsAt p := by
  cases move with
  | turn turn => exact Pool.worth_lt_of_turn turn rfl rfl rfl fun _ => rfl
  | call here | succeed here | fail here | panic here | rank here | enough here | proceed here
  | stop here =>
    obtain ⟨rest, hold, hnew⟩ := Pool.exists_worth_become (fun _ => 7) stepsLeft here
    simp only [stepsAt, hold, hnew, stepsLeft]
    omega

end DialWork

namespace Pipeline

variable {s s' : Pipeline} {source : Source} {cancelled : Bool} {journal : List Event}
  {candidates : List Endpoint} {history entered : List Measurement}

theorem Act.stepsLeft_lt {task : PipelineTask} (act : s.Act o replies task entered s') :
    s'.stepsLeft < s.stepsLeft := by
  have flag : (!s'.ledger.cancelled).toNat ≤ (!s.ledger.cancelled).toNat := by
    cases cancelled : s.ledger.cancelled with
    | false => exact Bool.toNat_le _
    | true => simp [cancelled_of_move (.act act) cancelled]
  cases act with
  | feedSends here =>
    simp only [stepsLeft, here, FilterWork.stepsAt_push, Option.map_some, Option.getD_some,
      List.length_cons, List.length_nil]
    omega
  | feedEnds here =>
    simp only [stepsLeft, here, Option.map_some, Option.map_none, Option.getD_some,
      Option.getD_none]
    omega
  | icmp move =>
    have less := move.stepsAt_lt 12
    simp only [stepsLeft, FilterWork.stepsAt_push] at flag ⊢
    omega
  | tcp move =>
    have less := move.stepsAt_lt 7
    simp only [stepsLeft, DialWork.stepsAt_push] at flag ⊢
    omega
  | dial move =>
    have less := move.stepsAt_lt
    simp only [stepsLeft] at flag ⊢
    omega

lemma stepsLeft_lt_of_step {a : PipelineAction} (allowed : s.Allows o replies a)
    (h : s.step o a = some s') : s'.stepsLeft < s.stepsLeft := by
  cases a with
  | advance task =>
    have act : s.Act o replies task (s.entered (.advance task)) s' := act_of_advance h
    exact act.stepsLeft_lt
  | answer task outcome =>
    obtain ⟨stage, target, waits, answer⟩ := allowed
    exact (act_of_settle waits answer h).stepsLeft_lt
  | cancel =>
    unfold step at h
    split_ifs at h with running
    rw [← Option.some.inj h]
    simp [stepsLeft, Ledger.cancel, running]

/-- A run takes no more steps than were left when it began. -/
theorem Trace.length_add_stepsLeft_le {log : List (Pipeline × PipelineAction)}
    (trace : Trace o replies s log s') : log.length + s'.stepsLeft ≤ s.stepsLeft := by
  induction trace with
  | start => simp
  | step before allowed step ih =>
    have less := stepsLeft_lt_of_step allowed step
    rw [List.length_append, List.length_singleton]
    omega
  | report before e ih => exact ih

lemma stepsLeft_opened_le (o : Options) (source : Source) (cancelled : Bool) (journal : List Event)
    (candidates : List Endpoint) : (opened o source cancelled journal candidates).stepsLeft ≤
      18 * candidates.length + 6 * width o + 2 := by
  have size (filter : Bool) : (if filter then width o else 1) ≤ width o := by
    unfold width
    split <;> omega
  have icmp := size o.icmpFilter
  have tcp := size o.tcpFilter
  have flag := Bool.toNat_le (!cancelled)
  simp only [stepsLeft, opened, start, FilterWork.stepsAt_start, DialWork.stepsAt_start,
    Option.map_some, Option.getD_some]
  omega

end Pipeline

end EdgeScan.Scan
