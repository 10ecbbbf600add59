import EdgeScan.Proofs.Scan.Closing
import EdgeScan.Proofs.Scan.StepsLeft

/-!
The progress of a pipeline. As long as a task has not ended some task can go on, and every action
uses up one of the steps that are left. So whatever the order of actions, and whether or not the
scan is cancelled on the way, a run comes to an end, and with it all tasks.
-/
namespace EdgeScan.Scan

variable {o : Options} {replies : Replies} {i : ℕ} {more : Bool}

/-- When no worker of a pool can do anything at the channel, and none is at work, all have ended or
nothing is there to be taken yet. -/
theorem Pool.isDone_or_starved {Work : Type} {p : Pool Work} {cancelled : Bool}
    (stuck : ∀ i, p.receive i cancelled more = none)
    (idle : ∀ w ∈ p.workers, w = .waiting ∨ w = .receiving ∨ w = .done) :
    p.isDone = true ∨ p.inbox = [] ∧ more = true := by
  by_cases taken : p.workers.any Worker.isReceiving = true
  · right
    obtain ⟨w, hw, receiving⟩ := List.any_eq_true.mp taken
    obtain ⟨i, here⟩ := List.mem_iff_getElem?.mp hw
    cases w with
    | receiving =>
      have still := stuck i
      simp only [receive, here] at still
      split at still
      · exact absurd still (by simp)
      · split at still
        · exact absurd still (by simp)
        · rename_i empty
          split at still
          · rename_i open_
            exact ⟨empty, open_⟩
          · exact absurd still (by simp)
    | waiting | received | busy | done => simp [Worker.isReceiving] at receiving
  · left
    refine List.all_eq_true.mpr fun w hw => ?_
    rcases idle w hw with rfl | rfl | rfl
    · obtain ⟨i, here⟩ := List.mem_iff_getElem?.mp hw
      have still := stuck i
      simp only [receive, here, taken] at still
      split at still <;> simp at still
    · exact absurd (List.any_eq_true.mpr ⟨_, hw, rfl⟩) taken
    · rfl

namespace FilterWork

variable {stage : Stage} {l : Ledger} {p : Pool FilterWork} {room : Room}

/-- A filter stage that cannot go on, and waits for no probe, has ended or has nothing to do, unless
the channel behind it is full. -/
theorem isDone_or_starved (stuck : ∀ i, advance o stage l p i more room = none)
    (unprobed : ∀ (i : ℕ) (c : Endpoint), p.workers[i]? ≠ some (.busy (.probing c)))
    (open_ : room ≠ .full) :
    p.isDone = true ∨ p.inbox = [] ∧ more = true := by
  have idle (w) (hw : w ∈ p.workers) : w = .waiting ∨ w = .receiving ∨ w = .done := by
    obtain ⟨i, here⟩ := List.mem_iff_getElem?.mp hw
    have still := stuck i
    cases w with
    | waiting => exact .inl rfl
    | receiving => exact .inr (.inl rfl)
    | done => exact .inr (.inr rfl)
    | received c =>
      simp only [advance, here] at still
      split at still <;> simp at still
    | busy work =>
      cases work with
      | probing c => exact absurd here (unprobed i c)
      | sending c =>
        simp only [advance, here] at still
        cases room with
        | full => exact absurd rfl open_
        | gone => simp at still
        | free => cases gone : l.cancelled <;> simp [gone] at still
  have still (i) : p.receive i l.cancelled more = none := by
    have still := stuck i
    unfold advance at still
    split at still
    · rename_i c here
      simp [Pool.receive, here]
    · rename_i c here
      simp [Pool.receive, here]
    · simpa using still
  exact Pool.isDone_or_starved still idle

end FilterWork

theorem Pipeline.dial_isDone_or_starved {s : Pipeline} (stuck : ∀ i, s.advanceDial o i = none)
    (unprobed : ∀ (i : ℕ) (t : Endpoint), s.dial.workers[i]? ≠ some (.busy (.probing t))) :
    s.dial.isDone = true ∨ s.dial.inbox = [] ∧ (!s.tcp.isDone) = true := by
  have idle (w) (hw : w ∈ s.dial.workers) : w = .waiting ∨ w = .receiving ∨ w = .done := by
    obtain ⟨i, here⟩ := List.mem_iff_getElem?.mp hw
    have still := stuck i
    cases w with
    | waiting => exact .inl rfl
    | receiving => exact .inr (.inl rfl)
    | done => exact .inr (.inr rfl)
    | received c =>
      simp only [advanceDial, here] at still
      exact absurd still (Option.some_ne_none _)
    | busy work =>
      cases work with
      | probing t => exact absurd here (unprobed i t)
      | ranking | checking | stopping => simp [advanceDial, here, DialWork.advance] at still
  have still (i) : s.dial.receive i s.ledger.cancelled (!s.tcp.isDone) = none := by
    have still := stuck i
    unfold advanceDial at still
    split at still
    · rename_i c here
      simp [Pool.receive, here]
    · rename_i work here
      simp [Pool.receive, here]
    · simpa using still
  exact Pool.isDone_or_starved still idle

lemma Pool.room_ne_full {Work : Type} {p : Pool Work} {width : ℕ} (pos : 0 < width)
    (h : p.isDone = true ∨ p.inbox = [] ∧ more = true) : p.room width ≠ .full := by
  unfold room
  rcases h with done | ⟨empty, -⟩
  · simp [done]
  · rw [empty, List.length_nil, if_pos pos]
    split <;> simp

namespace Pipeline

variable {s s' : Pipeline} {source : Source} {cancelled : Bool} {journal : List Event}
  {candidates : List Endpoint} {log : List (Pipeline × PipelineAction)}

/-- Whether a task can go on, by itself or with an answer that its probe may give. -/
def CanAct (o : Options) (replies : Replies) (s : Pipeline) (task : PipelineTask) : Prop :=
  ∃ a s', a.task? = some task ∧ s.Allows o replies a ∧ s.step o a = some s'

/-- Whatever happens from now on, in the end all tasks have ended. -/
inductive Ends (o : Options) (replies : Replies) : Pipeline → Prop
  | done {s : Pipeline} (done : s.isDone = true) : Ends o replies s
  | step {s : Pipeline} (goesOn : ∃ task, s.CanAct o replies task)
      (all : ∀ a s', s.Allows o replies a → s.step o a = some s' → Ends o replies s') :
      Ends o replies s

theorem exists_settle {task : PipelineTask} {stage : Option Stage} {target : Endpoint}
    (waits : s.awaited o task = some (stage, target)) (outcome : Outcome) :
    ∃ s', s.settle o task outcome = some s' := by
  unfold awaited at waits
  unfold settle
  split at waits
  · exact absurd waits (by simp)
  · split at waits
    · rename_i here
      cases outcome <;> simp only [FilterWork.settle, here]
      · split <;> exact ⟨_, rfl⟩
      · exact ⟨_, rfl⟩
      · exact ⟨_, rfl⟩
    · exact absurd waits (by simp)
  · split at waits
    · rename_i here
      cases outcome <;> simp only [FilterWork.settle, here]
      · split <;> exact ⟨_, rfl⟩
      · exact ⟨_, rfl⟩
      · exact ⟨_, rfl⟩
    · exact absurd waits (by simp)
  · split at waits
    · rename_i here
      cases outcome <;> simp only [settleDial, here] <;> exact ⟨_, rfl⟩
    · exact absurd waits (by simp)

/-- A pipeline in which no task can take a step, and none waits for a probe, has ended: the
handshake workers leave room in front of them, so do both filters in turn, and at last the feed. -/
theorem isDone_of_idle (still : ∀ task, s.advance o task = none)
    (unprobed : ∀ task, s.awaited o task = none) : s.isDone = true := by
  have pos : 0 < width o := by
    unfold width
    omega
  have dial : s.dial.isDone = true ∨ s.dial.inbox = [] ∧ (!s.tcp.isDone) = true :=
    dial_isDone_or_starved (fun i => still (.dial i))
      fun i t here => by simpa [awaited, here] using unprobed (.dial i)
  have tcp : s.tcp.isDone = true ∨ s.tcp.inbox = [] ∧ (!s.icmp.isDone) = true :=
    FilterWork.isDone_or_starved
      (fun i => Option.map_eq_none_iff.mp (still (.filter .tcp i)))
      (fun i c here => by simpa [awaited, here] using unprobed (.filter .tcp i))
      (Pool.room_ne_full pos dial)
  have icmp : s.icmp.isDone = true ∨ s.icmp.inbox = [] ∧ s.feed.isSome = true :=
    FilterWork.isDone_or_starved
      (fun i => Option.map_eq_none_iff.mp (still (.filter .icmp i)))
      (fun i c here => by simpa [awaited, here] using unprobed (.filter .icmp i))
      (Pool.room_ne_full pos tcp)
  have feed : s.feed = none := by
    have idle := still .feed
    have open_ := Pool.room_ne_full pos icmp
    simp only [advance, advanceFeed] at idle
    split at idle
    · assumption
    · exact absurd idle (by simp)
    · split_ifs at idle with gone free
      cases room : s.icmp.room (width o) <;> simp_all
  simp only [isDone, feed, Option.isNone_none, Bool.true_and, Bool.and_eq_true]
  have icmpDone : s.icmp.isDone = true := by simpa [feed] using icmp
  have tcpDone : s.tcp.isDone = true := by simpa [icmpDone] using tcp
  exact ⟨⟨icmpDone, tcpDone⟩, by simpa [tcpDone] using dial⟩

theorem isDone_of_stuck
    (answering : ∀ cancelled stage target, ∃ outcome, replies cancelled stage target outcome)
    (stuck : ∀ task, ¬s.CanAct o replies task) : s.isDone = true := by
  refine isDone_of_idle (o := o) (fun task => ?_) fun task => ?_
  · by_contra goesOn
    obtain ⟨s', step⟩ := Option.ne_none_iff_exists'.mp goesOn
    exact stuck task ⟨.advance task, s', rfl, trivial, step⟩
  · by_contra goesOn
    obtain ⟨⟨stage, target⟩, waits⟩ := Option.ne_none_iff_exists'.mp goesOn
    obtain ⟨outcome, answer⟩ := answering s.ledger.cancelled stage target
    obtain ⟨s', step⟩ := exists_settle waits outcome
    exact stuck task ⟨.answer task outcome, s', rfl, ⟨stage, target, waits, answer⟩, step⟩

theorem not_canAct_of_isDone (done : s.isDone = true) (task : PipelineTask) :
    ¬s.CanAct o replies task := by
  rintro ⟨a, s', mine, allowed, step⟩
  simp only [isDone, Bool.and_eq_true, Option.isNone_iff_eq_none] at done
  obtain ⟨⟨⟨feed, icmp⟩, tcp⟩, dial⟩ := done
  obtain ⟨entered, act⟩ := exists_act_of_step allowed step mine
  cases act with
  | feedSends here | feedEnds here => simp [feed] at here
  | icmp move => simp [move.isDone_eq_false] at icmp
  | tcp move => simp [move.isDone_eq_false] at tcp
  | dial move => simp [move.isDone_eq_false] at dial

/-- Whatever order of actions is taken, all tasks end. -/
theorem ends_of_answering
    (answering : ∀ cancelled stage target, ∃ outcome, replies cancelled stage target outcome)
    (s : Pipeline) : s.Ends o replies := by
  induction left : s.stepsLeft using Nat.strong_induction_on generalizing s with
  | h n ih =>
    by_cases done : s.isDone = true
    · exact .done done
    · refine .step ?_ fun a s' allowed step => ?_
      · by_contra stuck
        exact done (isDone_of_stuck answering fun task can => stuck ⟨task, can⟩)
      · exact ih _ (left ▸ stepsLeft_lt_of_step allowed step) s' rfl

/-- A pipeline never gets stuck, and every schedule of it is finite. In each state that is reached
either all tasks have ended or some task can go on. Every action uses up one of the steps that are
left, of which there are no more than 18 for each candidate, 6 for each worker of a stage, and two.
So whatever order of actions is taken, and whenever the scan is cancelled, all tasks end, provided
only that every probe answers in the end. -/
theorem every_schedule_ends
    (answering : ∀ cancelled stage target, ∃ outcome, replies cancelled stage target outcome)
    (run : Trace o replies (opened o source cancelled journal candidates) log s) :
    (s.isDone = true ↔ ∀ task, ¬s.CanAct o replies task) ∧
    (∀ a s', s.Allows o replies a → s.step o a = some s' → s'.stepsLeft < s.stepsLeft) ∧
    log.length + s.stepsLeft ≤ 18 * candidates.length + 6 * width o + 2 ∧
    s.Ends o replies :=
  ⟨⟨not_canAct_of_isDone, isDone_of_stuck answering⟩,
    fun _ _ allowed step => stepsLeft_lt_of_step allowed step,
    run.length_add_stepsLeft_le.trans (stepsLeft_opened_le o source cancelled journal candidates),
    ends_of_answering answering s⟩

/-- Two candidates on their way through both filters. -/
theorem every_schedule_ends_two_candidates :
    let near := Endpoint.v4 ⟨0x0A000001⟩ 2408
    let far := Endpoint.v4 ⟨0x0A000002⟩ 0
    let o : Options := { icmpFilter := true, workers := 1 }
    let f : Answers := fun stage t =>
      if stage = some .icmp ∧ t = far then .error .timeout else .ok (t, .ofMillis 1)
    ∃ log s, Trace o f.replies (opened o default false [] [near, far]) log s ∧
      s.isDone = false ∧ log.length ≤ 44 ∧ s.Ends o f.replies := by
  intro near far o f
  let start := opened o default false [] [near, far]
  let run := serveAll o f [] start (List.replicate 5 start.tasks).flatten
  have midway : run.2.isDone = false := by decide +kernel
  have reached : Reaches o f.replies start run.1 run.2 := reaches_of_serveAll _ .start
  obtain ⟨log, trace⟩ := reached.exists_trace
  have ends := every_schedule_ends (fun cancelled stage target =>
    ⟨_, f.replies_outcome cancelled stage target⟩) trace
  have bound : log.length + run.2.stepsLeft ≤ 44 := ends.2.2.1
  exact ⟨log, run.2, trace, midway, by omega, ends.2.2.2⟩

end Pipeline

end EdgeScan.Scan
