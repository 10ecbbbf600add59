import EdgeScan.Proofs.Scan.Cancellation
import EdgeScan.Proofs.Scan.Closing
import EdgeScan.Proofs.Scan.PortScan
import Mathlib.Algebra.Order.Group.Nat

/-!
How a scan stops early. The test for it stands behind the entry of a result, and meanwhile other
workers go on. So there may be more results than the scan was told to stop at, but fewer more than
there are workers. Once a scan is cancelled nothing is taken from a channel any more, so that a
worker calls at most the probe for the candidate that it has taken before.
-/
namespace EdgeScan.Scan

namespace DialWork

/-- Counts a candidate that may still bring a result. -/
def pending : Worker DialWork → ℕ
  | .received _ | .busy (.probing _) | .busy (.ranking _) => 1
  | _ => 0

lemma measured_le_pending (w : Worker DialWork) : measured w ≤ pending w := by
  cases w with
  | busy work => cases work <;> simp [measured, pending]
  | waiting | receiving | received | done => simp [measured, pending]

lemma pending_add_testing_le (w : Worker DialWork) : pending w + testing w ≤ 1 := by
  cases w with
  | busy work => cases work <;> simp [testing, pending]
  | waiting | receiving | received | done => simp [testing, pending]

end DialWork

namespace Pool

variable {Work : Type} {p p' : Pool Work} {i : ℕ} {w : Worker Work} {f g : Worker Work → ℕ}

lemma inHand_le (h : ∀ w, f w ≤ g w) (p : Pool Work) : p.inHand f ≤ p.inHand g :=
  List.sum_le_sum fun w _ => h w

theorem inHand_add_le (h : ∀ w, f w + g w ≤ 1) (p : Pool Work) :
    p.inHand f + p.inHand g ≤ p.workers.length := by
  have each := List.sum_le_card_nsmul (p.workers.map fun w => f w + g w) 1 fun x hx => by
    obtain ⟨w, -, rfl⟩ := List.mem_map.mp hx
    exact h w
  rw [List.sum_map_add] at each
  simpa [inHand] using each

end Pool

variable {o : Options} {replies : Replies} {i : ℕ} {more : Bool}

theorem DialWork.Move.pending_le {l l' : Ledger} {p p' : Pool DialWork}
    {entered : List Measurement} (move : Move o replies l p i more entered l' p')
    (cancelled : l'.cancelled = true) :
    entered.length + p'.inHand pending ≤ p.inHand pending := by
  cases move with
  | turn turn =>
    cases turn with
    | enter here running | take here running => simp [running] at cancelled
    | leave here idle =>
      obtain ⟨rest, hold, hnew⟩ := Pool.exists_inHand_become pending here
      rcases idle with rfl | rfl <;> simp [hold, hnew, pending]
  | call here | succeed here | fail here | panic here | rank here | enough here | proceed here
  | stop here =>
    obtain ⟨rest, hold, hnew⟩ := Pool.exists_inHand_become pending here
    simp [hold, hnew, pending, Nat.add_comm]

namespace Pipeline

variable {s s' : Pipeline} {source : Source} {cancelled : Bool} {journal : List Event}
  {candidates : List Endpoint} {history entered : List Measurement}

lemma length_dial_of_move (move : s.Move o replies entered s') :
    s'.dial.workers.length = s.dial.workers.length := by
  cases move with
  | cancel | report => rfl
  | act act =>
    cases act with
    | feedSends | feedEnds | icmp | tcp => rfl
    | dial move => exact move.length_workers

lemma length_dial_of_reaches
    (reached : Reaches o replies (opened o source cancelled journal candidates) history s) :
    s.dial.workers.length = width o :=
  reached.invariant (P := fun _ s => s.dial.workers.length = width o) List.length_replicate
    fun _ _ _ _ _ ih move => (length_dial_of_move move).trans ih

lemma pending_le_of_move (move : s.Move o replies entered s')
    (cancelled : s'.ledger.cancelled = true) :
    entered.length + s'.dial.inHand DialWork.pending ≤ s.dial.inHand DialWork.pending := by
  cases move with
  | cancel | report => exact (zero_add _).le
  | act act =>
    cases act with
    | feedSends | feedEnds | icmp | tcp => exact (zero_add _).le
    | dial move => exact move.pending_le cancelled

/-- The results that were entered and those that may still come if the scan is cancelled are fewer
than the scan stops at and its workers together. While the scan goes on, each worker stands for one
of them at most: either its result is still to come, or it may be one too many. -/
theorem length_add_pending_lt (positive : 0 < o.stopAfter)
    (fits : o.capacity = 0 ∨ o.stopAfter ≤ o.capacity)
    (reached : Reaches o replies (opened o source cancelled journal candidates) history s) :
    history.length + s.dial.inHand DialWork.pending < o.stopAfter + width o := by
  refine reached.invariant (P := fun history s =>
    history.length + s.dial.inHand DialWork.pending < o.stopAfter + width o) ?_ ?_
  · have idle : (opened o source cancelled journal candidates).dial.inHand DialWork.pending = 0 :=
      Pool.inHand_start rfl (width o)
    rw [idle, List.length_nil]
    omega
  · intro history s entered s' before ih move
    rw [List.length_append]
    cases cancelled : s'.ledger.cancelled with
    | false =>
      have few := ((accepted_of_reaches before).step (acceptance_of_move move)).tooFew positive fits
        cancelled
      have hands := s'.dial.inHand_add_le DialWork.pending_add_testing_le
      have staff := (length_dial_of_move move).trans (length_dial_of_reaches before)
      rw [List.length_append] at few
      omega
    | true =>
      have fewer := pending_le_of_move move cancelled
      omega

/-- A scan that stops early finds fewer results too many than it has workers, as long as the ranking
can hold as many as it stops at. Once the scan is cancelled, for whatever reason, it only winds
down, and a log of that shows all probes that are still called. -/
theorem early_stop_overshoot (positive : 0 < o.stopAfter)
    (fits : o.capacity = 0 ∨ o.stopAfter ≤ o.capacity)
    (reached : Reaches o replies (opened o source cancelled journal candidates) history s) :
    s.ledger.handshakesOk ≤ o.stopAfter + width o - 1 ∧
    s.ledger.ranking.size ≤ o.stopAfter + width o - 1 ∧
    (s.ledger.cancelled = true → ∀ log s', Trace o replies s log s' →
      WindsDown o s log s' ∧ s'.ledger.calls = s.ledger.calls + (calls o log).length) := by
  have ok := handshakesOk_of_reaches reached
  have size := (accepted_of_reaches reached).size
  have few := length_add_pending_lt positive fits reached
  have measured := s.dial.inHand_le DialWork.measured_le_pending
  refine ⟨by omega, ?_, fun cancelled log s' trace => ⟨trace.windsDown cancelled, trace.calls⟩⟩
  split at size <;> omega

/-- Two workers and a scan that stops at one result. The second worker has taken a candidate when
the first one stops the scan, so that there is one result too many in the end. A third candidate
stays in its channel. -/
theorem early_stop_overshoot_two_workers :
    let c (n : UInt32) := Endpoint.v4 ⟨0x0A000000 + n⟩ 2408
    let o : Options := { tcpFilter := false, workers := 2, stopAfter := 1 }
    let f : Answers := fun _ t => .ok (t, .ofMillis 1)
    ∃ history s log s', Reaches o f.replies (opened o default false [] [c 1, c 2, c 3]) history s ∧
      s.ledger.cancelled = true ∧ s.taken? (.dial 1) = some (c 1) ∧ s.dial.inbox = [c 3] ∧
      Trace o f.replies s log s' ∧ s'.isDone = true ∧ s'.ledger.handshakesOk = 2 ∧
      WindsDown o s log s' ∧ s'.dial.inbox = [c 3] ∧ (calls o log).length ≤ 1 := by
  intro c o f
  let start := opened o default false [] [c 1, c 2, c 3]
  let stop := serveAll o f [] start
    ((List.replicate 6 (start.tasks.erase (.dial 0))).flatten ++
      (List.replicate 9 (start.tasks.erase (.dial 1))).flatten)
  let run := serveAll o f [] stop.2 (List.replicate 5 start.tasks).flatten
  have stops : stop.2.ledger.cancelled = true ∧ stop.2.taken? (.dial 1) = some (c 1) ∧
      stop.2.dial.inbox = [c 3] := by
    decide +kernel
  have ends : run.2.isDone = true ∧ run.2.ledger.handshakesOk = 2 := by decide +kernel
  have called : run.2.ledger.calls = stop.2.ledger.calls + 1 := by decide +kernel
  have reached : Reaches o f.replies start stop.1 stop.2 := reaches_of_serveAll _ .start
  have further : Reaches o f.replies stop.2 run.1 run.2 := reaches_of_serveAll _ .start
  obtain ⟨log, trace⟩ := further.exists_trace
  have bounds := early_stop_overshoot (by decide) (.inr (by decide)) reached
  have winds := bounds.2.2 stops.1 log _ trace
  refine ⟨_, _, log, _, reached, stops.1, stops.2.1, stops.2.2, trace, ends.1, ends.2, winds.1,
    winds.1.dial.trans stops.2.2, ?_⟩
  have counted := winds.2
  omega

end Pipeline

namespace Accepted

variable {candidates testing : ℕ} {history : List Measurement} {l : Ledger}

theorem cancelled_of_enough (accepted : Accepted o candidates history l testing)
    (positive : 0 < o.stopAfter) (fits : o.capacity = 0 ∨ o.stopAfter ≤ o.capacity)
    (enough : o.stopAfter + testing ≤ history.length) : l.cancelled = true := by
  by_contra running
  have few := accepted.tooFew positive fits (by simpa using running)
  omega

theorem hasEnough_eq_false (accepted : Accepted o candidates history l testing)
    (bounded : 0 < o.capacity) (small : o.capacity < o.stopAfter) : l.hasEnough o = false := by
  have size := accepted.size
  rw [if_neg bounded.ne'] at size
  have few : ¬o.stopAfter ≤ l.ranking.size := by omega
  simp [Ledger.hasEnough, few]

end Accepted

/-- In either mode a scan is cancelled as soon as it has accepted the results that it stops at,
provided that the ranking can hold so many; results that are still tested are not yet accepted. A
ranking that cannot hold them never stops a scan. -/
theorem early_stop_honoured (positive : 0 < o.stopAfter) {source : Source} {cancelled : Bool}
    {journal : List Event} {endpoints : List Endpoint} {history : List Measurement} :
    (∀ s, Pipeline.Reaches o replies (.opened o source cancelled journal endpoints) history s →
      (o.capacity = 0 ∨ o.stopAfter ≤ o.capacity →
        o.stopAfter + s.dial.inHand DialWork.testing ≤ history.length →
        s.ledger.cancelled = true) ∧
      (0 < o.capacity → o.capacity < o.stopAfter → s.ledger.hasEnough o = false)) ∧
    ∀ s, PortScan.Reaches o replies (.opened o source cancelled journal endpoints) history s →
      (o.capacity = 0 ∨ o.stopAfter ≤ o.capacity →
        o.stopAfter + s.testing ≤ history.length → s.ledger.cancelled = true) ∧
      (0 < o.capacity → o.capacity < o.stopAfter → s.ledger.hasEnough o = false) := by
  refine ⟨fun s reached => ?_, fun s reached => ?_⟩
  · have accepted := Pipeline.accepted_of_reaches reached
    exact ⟨accepted.cancelled_of_enough positive, accepted.hasEnough_eq_false⟩
  · have accepted := PortScan.accepted_of_reaches reached
    exact ⟨accepted.cancelled_of_enough positive, accepted.hasEnough_eq_false⟩

/-- A pipeline and a dedicated scan that both stop at one result, after two candidates of three. -/
theorem early_stop_honoured_one_of_three :
    let c (n : UInt32) := Endpoint.v4 ⟨0x0A000000 + n⟩ 2408
    let o : Options := { tcpFilter := false, workers := 2, stopAfter := 1 }
    let f : Answers := fun _ t => .ok (t, .ofMillis 1)
    (∃ history s,
      Pipeline.Reaches o f.replies (.opened o default false [] [c 1, c 2, c 3]) history s ∧
      1 ≤ history.length ∧ s.ledger.cancelled = true) ∧
    ∃ history s,
      PortScan.Reaches o f.replies (.opened o default false [] [c 1, c 2, c 3]) history s ∧
      history.length = 2 ∧ s.ledger.cancelled = true := by
  intro c o f
  let start := Pipeline.opened o default false [] [c 1, c 2, c 3]
  let pairs := PortScan.opened o default false [] [c 1, c 2, c 3]
  let run := Pipeline.serveAll o f [] start (List.replicate 20 start.tasks).flatten
  let dedicated := PortScan.serveAll o f [] pairs
    (List.replicate 6 [PortScanTask.starter, .pair 0, .pair 1]).flatten
  have accepts : o.stopAfter + run.2.dial.inHand DialWork.testing ≤ run.1.length := by
    decide +kernel
  have both : o.stopAfter + dedicated.2.testing ≤ dedicated.1.length ∧ dedicated.1.length = 2 := by
    decide +kernel
  have reached : Pipeline.Reaches o f.replies start run.1 run.2 :=
    Pipeline.reaches_of_serveAll _ .start
  have also : PortScan.Reaches o f.replies pairs dedicated.1 dedicated.2 :=
    PortScan.reaches_of_serveAll _ .start
  have fits : o.capacity = 0 ∨ o.stopAfter ≤ o.capacity := .inr (by decide)
  exact ⟨⟨_, _, reached, le_of_add_le_left accepts,
      ((early_stop_honoured (by decide)).1 _ reached).1 fits accepts⟩,
    ⟨_, _, also, both.2, ((early_stop_honoured (by decide)).2 _ also).1 fits both.1⟩⟩

/-- A ranking that keeps one result, and a scan that is told to stop at two. All three candidates
are accepted one after the other, and the scan is never stopped. -/
theorem early_stop_missed_by_small_ranking :
    let c (n : UInt32) := Endpoint.v4 ⟨0x0A000000 + n⟩ 2408
    let o : Options := { endpoints := [c 1, c 2, c 3], tcpFilter := false, workers := 1,
                         stopAfter := 2, capacity := 1 }
    let f : Answers := fun _ t => .ok (t, .ofMillis 1)
    o.validate = .ok () ∧ ∃ history s,
      Pipeline.Reaches o f.replies (.opened o default false [] o.endpoints) history s ∧
      s.isDone = true ∧ o.stopAfter + s.dial.inHand DialWork.testing ≤ history.length ∧
      s.ledger.cancelled = false := by
  intro c o f
  let start := Pipeline.opened o default false [] o.endpoints
  let run := Pipeline.serveAll o f [] start (List.replicate 24 start.tasks).flatten
  have ends : run.2.isDone = true ∧
      o.stopAfter + run.2.dial.inHand DialWork.testing ≤ run.1.length ∧
      run.2.ledger.cancelled = false := by
    decide +kernel
  exact ⟨rfl, run.1, run.2, Pipeline.reaches_of_serveAll _ .start, ends⟩

end EdgeScan.Scan
