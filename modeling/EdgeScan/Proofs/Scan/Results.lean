import EdgeScan.Proofs.Ranking
import EdgeScan.Proofs.Scan.Closing

/-!
Results on their way into the ranking. A handshake that succeeds is counted at once. Its result is
entered by a later step, and after that it is tested whether the scan stops early. So the successful
handshakes are the results that were entered and those that a worker still holds, and a scan that
goes on has entered too few to stop, apart from those that are still tested.
-/
namespace EdgeScan

theorem Ranking.size_enqueueAll (capacity : ℕ) (history : List Measurement) :
    ((empty capacity).enqueueAll history).1.size =
      if capacity = 0 then history.length else min history.length capacity := by
  have all := (stableSort_perm history).length_eq
  unfold size
  rw [entries_enqueueAll]
  unfold truncate
  split
  · exact all
  · rw [List.length_take, all, min_comm]

theorem Ranking.size_le_size_enqueue (r : Ranking) (m : Measurement) :
    r.size ≤ (r.enqueue m).1.size := by
  simp only [enqueue, size]
  split <;> simp

namespace Scan

namespace Ledger

lemma exists_noteFailure_eq (l : Ledger) (e : ProbeError) :
    ∃ journal, l.noteFailure e = { l with journal } := by
  unfold noteFailure
  split
  · exact ⟨l.journal, rfl⟩
  · exact ⟨_, rfl⟩

lemma exists_failHandshake_eq (l : Ledger) (e : ProbeError) :
    ∃ handshakesFailed journal, l.failHandshake e = { l with handshakesFailed, journal } ∧
      handshakesFailed = l.handshakesFailed + (!(e.isCancelled || l.cancelled)).toNat := by
  unfold failHandshake
  split
  · rename_i shutdown
    exact ⟨l.handshakesFailed, l.journal, rfl, by simp [shutdown]⟩
  · rename_i counted
    exact ⟨_, _, rfl, by simp [counted]⟩

lemma exists_enqueue_eq (l : Ledger) (m : Measurement) :
    ∃ journal, l.enqueue m = { l with ranking := (l.ranking.enqueue m).1, journal } := by
  simp only [enqueue]
  split
  · exact ⟨_, rfl⟩
  · exact ⟨_, rfl⟩

end Ledger

namespace DialWork

/-- Counts a result that is not entered yet. -/
def measured : Worker DialWork → ℕ
  | .busy (.ranking _) => 1
  | _ => 0

/-- Counts a result that is entered, as long as it is tested whether the scan stops early. -/
def testing : Worker DialWork → ℕ
  | .busy .checking | .busy .stopping => 1
  | _ => 0

end DialWork

/-- The sum over the workers of a pool. -/
def Pool.inHand {Work : Type} (f : Worker Work → ℕ) (p : Pool Work) : ℕ := (p.workers.map f).sum

namespace Pool

variable {Work : Type} {p p' : Pool Work} {i : ℕ} {w : Worker Work} {f : Worker Work → ℕ}

lemma exists_inHand_become (f : Worker Work → ℕ) (here : p.workers[i]? = some w) :
    ∃ rest, p.inHand f = f w + rest ∧ ∀ w', (p.become i w').inHand f = f w' + rest :=
  exists_sum_set f here

lemma inHand_of_turn {cancelled more : Bool} (turn : p.Turn i cancelled more p')
    (waiting : f .waiting = 0) (receiving : f .receiving = 0) (done : f .done = 0)
    (received : ∀ c, f (.received c) = 0) : p'.inHand f = p.inHand f := by
  cases turn with
  | enter here | take here =>
    obtain ⟨rest, hold, hnew⟩ := exists_inHand_become f here
    exact (hnew _).trans (by simp only [hold, waiting, receiving, received])
  | leave here idle =>
    obtain ⟨rest, hold, hnew⟩ := exists_inHand_become f here
    rcases idle with rfl | rfl <;>
      exact (hnew _).trans (by simp only [hold, waiting, receiving, done])

lemma inHand_of_isDone (idle : f .done = 0) (done : p.isDone = true) : p.inHand f = 0 := by
  refine List.sum_eq_zero fun x hx => ?_
  obtain ⟨w, hw, rfl⟩ := List.mem_map.mp hx
  have ended := List.all_eq_true.mp done w hw
  cases w <;> first | exact idle | simp [Worker.isDone] at ended

lemma inHand_start (idle : f .waiting = 0) (size : ℕ) : (start size : Pool Work).inHand f = 0 := by
  simp [inHand, start, idle]

end Pool

/-- What a move means for the results of a scan: a result that is entered is tested after that, and
the test is left only if not enough results were found, unless the scan is cancelled. -/
structure Acceptance (o : Options) (l : Ledger) (testing : ℕ) (entered : List Measurement)
    (l' : Ledger) (testing' : ℕ) : Prop where
  ranking : l'.ranking = (l.ranking.enqueueAll entered).1
  candidates : l'.candidates = l.candidates
  running : l'.cancelled = false → l.cancelled = false
  tested : l'.cancelled = false → testing' = testing + entered.length ∨
    testing = testing' + 1 ∧ entered = [] ∧ l.hasEnough o = false

/-- What holds at any time of the results that were entered: the ranking is theirs, and a scan that
goes on has too few of them, apart from those that are still tested. -/
structure Accepted (o : Options) (candidates : ℕ) (history : List Measurement) (l : Ledger)
    (testing : ℕ) : Prop where
  ranking : l.ranking = ((Ranking.empty o.capacity).enqueueAll history).1
  candidates : l.candidates = candidates
  tooFew : 0 < o.stopAfter → o.capacity = 0 ∨ o.stopAfter ≤ o.capacity → l.cancelled = false →
    history.length < o.stopAfter + testing

namespace Accepted

variable {o : Options} {candidates testing : ℕ} {history : List Measurement} {l : Ledger}

lemma size (accepted : Accepted o candidates history l testing) :
    l.ranking.size = if o.capacity = 0 then history.length else min history.length o.capacity := by
  rw [accepted.ranking, Ranking.size_enqueueAll]

/-- A ranking that does not hold enough results to stop has not seen enough of them, unless it is too
small to hold so many. So what is accepted keeps the ranking up to date and the results too few. -/
theorem step {entered : List Measurement} {l' : Ledger} {testing' : ℕ}
    (accepted : Accepted o candidates history l testing)
    (move : Acceptance o l testing entered l' testing') :
    Accepted o candidates (history ++ entered) l' testing' where
  ranking := by rw [Ranking.enqueueAll_append, ← accepted.ranking, move.ranking]
  candidates := move.candidates.trans accepted.candidates
  tooFew positive fits running := by
    have before := accepted.tooFew positive fits (move.running running)
    rw [List.length_append]
    rcases move.tested running with same | ⟨left, rfl, found⟩
    · omega
    · have few : l.ranking.size < o.stopAfter := by
        simpa [Ledger.hasEnough, positive, move.running running] using found
      rw [accepted.size] at few
      rw [List.length_nil]
      split at few <;> omega

end Accepted

variable {o : Options} {replies : Replies} {i : ℕ} {more : Bool}

/-- Filters touch nothing that has to do with handshakes. -/
theorem FilterWork.Move.handshakes {stage : Stage} {l : Ledger} {p : Pool FilterWork} {room : Room}
    {n : FilterStep} (move : Move o replies stage l p i more room n) :
    n.ledger.handshakesOk = l.handshakesOk ∧ n.ledger.handshakesFailed = l.handshakesFailed ∧
      n.ledger.ranking = l.ranking ∧ n.ledger.candidates = l.candidates ∧
      n.ledger.cancelled = l.cancelled := by
  cases move with
  | turn | skip | send | quit | drop | panic => exact ⟨rfl, rfl, rfl, rfl, rfl⟩
  | call | pass => cases stage <;> exact ⟨rfl, rfl, rfl, rfl, rfl⟩
  | @fail c e here answer =>
    obtain ⟨journal, same⟩ := l.exists_noteFailure_eq e
    rw [same]
    exact ⟨rfl, rfl, rfl, rfl, rfl⟩

namespace DialWork.Move

variable {l l' : Ledger} {p p' : Pool DialWork} {entered : List Measurement}

theorem handshakesOk (move : Move o replies l p i more entered l' p') :
    l'.handshakesOk + p.inHand measured =
      l.handshakesOk + entered.length + p'.inHand measured := by
  cases move with
  | turn turn => simp [Pool.inHand_of_turn turn (f := measured) rfl rfl rfl fun _ => rfl]
  | call here | panic here | enough here | proceed here | stop here =>
    obtain ⟨rest, hold, hnew⟩ := Pool.exists_inHand_become measured here
    simp [hold, hnew, measured, Ledger.dial, Ledger.note, Ledger.cancel]
  | succeed here =>
    obtain ⟨rest, hold, hnew⟩ := Pool.exists_inHand_become measured here
    simp only [hold, hnew, measured, Ledger.succeed, Ledger.note, List.length_nil]
    omega
  | @fail t e here =>
    obtain ⟨rest, hold, hnew⟩ := Pool.exists_inHand_become measured here
    obtain ⟨failed, journal, same, -⟩ := l.exists_failHandshake_eq e
    simp [hold, hnew, measured, same]
  | @rank m here =>
    obtain ⟨rest, hold, hnew⟩ := Pool.exists_inHand_become measured here
    obtain ⟨journal, same⟩ := l.exists_enqueue_eq m
    simp only [hold, hnew, measured, same, List.length_singleton]
    omega

theorem acceptance (move : Move o replies l p i more entered l' p') :
    Acceptance o l (p.inHand testing) entered l' (p'.inHand testing) := by
  cases move with
  | turn turn =>
    exact ⟨rfl, rfl, id, fun _ => .inl (Pool.inHand_of_turn turn rfl rfl rfl fun _ => rfl)⟩
  | call here | succeed here | panic here | enough here =>
    obtain ⟨rest, hold, hnew⟩ := Pool.exists_inHand_become testing here
    exact ⟨rfl, rfl, id, fun _ => .inl ((hnew _).trans hold.symm)⟩
  | @fail t e here =>
    obtain ⟨rest, hold, hnew⟩ := Pool.exists_inHand_become testing here
    obtain ⟨failed, journal, same, -⟩ := l.exists_failHandshake_eq e
    rw [same]
    exact ⟨rfl, rfl, id, fun _ => .inl ((hnew _).trans hold.symm)⟩
  | @rank m here =>
    obtain ⟨rest, hold, hnew⟩ := Pool.exists_inHand_become testing here
    obtain ⟨journal, same⟩ := l.exists_enqueue_eq m
    rw [same]
    refine ⟨rfl, rfl, id, fun _ => .inl ?_⟩
    simp only [hold, hnew, testing, List.length_singleton]
    omega
  | proceed here found =>
    obtain ⟨rest, hold, hnew⟩ := Pool.exists_inHand_become testing here
    refine ⟨rfl, rfl, id, fun _ => .inr ⟨?_, rfl, found⟩⟩
    simp only [hold, hnew, testing]
    omega
  | stop here =>
    exact ⟨rfl, rfl, fun running => absurd running (by simp [Ledger.cancel]),
      fun running => absurd running (by simp [Ledger.cancel])⟩

end DialWork.Move

namespace Pipeline

variable {s s' : Pipeline} {source : Source} {cancelled : Bool} {journal : List Event}
  {candidates : List Endpoint} {history entered : List Measurement}

lemma acceptance_of_move (move : s.Move o replies entered s') :
    Acceptance o s.ledger (s.dial.inHand DialWork.testing) entered s'.ledger
      (s'.dial.inHand DialWork.testing) := by
  have running := running_of_move move
  cases move with
  | cancel | report => exact ⟨rfl, rfl, running, fun _ => .inl rfl⟩
  | act act =>
    cases act with
    | feedSends | feedEnds => exact ⟨rfl, rfl, running, fun _ => .inl rfl⟩
    | icmp move | tcp move =>
      obtain ⟨-, -, ranking, number, -⟩ := move.handshakes
      exact ⟨ranking, number, running, fun _ => .inl rfl⟩
    | dial move => exact move.acceptance

lemma accepted_of_reaches
    (reached : Reaches o replies (opened o source cancelled journal candidates) history s) :
    Accepted o candidates.length history s.ledger (s.dial.inHand DialWork.testing) := by
  refine reached.invariant (P := fun history s =>
    Accepted o candidates.length history s.ledger (s.dial.inHand DialWork.testing)) ?_ ?_
  · exact ⟨rfl, rfl, fun positive _ _ => Nat.lt_add_right _ positive⟩
  · intro history s entered s' _ accepted move
    exact accepted.step (acceptance_of_move move)

/-- At any time the ranking is that of the results entered so far. -/
theorem ranking_of_reaches
    (reached : Reaches o replies (opened o source cancelled journal candidates) history s) :
    s.ledger.ranking = ((Ranking.empty o.capacity).enqueueAll history).1 ∧
      s.ledger.candidates = candidates.length :=
  ⟨(accepted_of_reaches reached).ranking, (accepted_of_reaches reached).candidates⟩

lemma handshakesOk_of_move (move : s.Move o replies entered s') :
    s'.ledger.handshakesOk + s.dial.inHand DialWork.measured =
      s.ledger.handshakesOk + entered.length + s'.dial.inHand DialWork.measured := by
  cases move with
  | cancel | report => rfl
  | act act =>
    cases act with
    | feedSends | feedEnds => rfl
    | icmp move => simp [move.handshakes]
    | tcp move => simp [move.handshakes, Pool.inHand, Pool.push]
    | dial move => exact move.handshakesOk

/-- The successful handshakes are the results that were entered and those still in hand. -/
theorem handshakesOk_of_reaches
    (reached : Reaches o replies (opened o source cancelled journal candidates) history s) :
    s.ledger.handshakesOk = history.length + s.dial.inHand DialWork.measured := by
  refine reached.invariant (P := fun history s =>
    s.ledger.handshakesOk = history.length + s.dial.inHand DialWork.measured) ?_ ?_
  · exact (Nat.add_zero 0).symm.trans
      (congrArg _ (Pool.inHand_start rfl (width o)).symm)
  · intro history s entered s' _ ih move
    have step := handshakesOk_of_move move
    rw [List.length_append]
    omega

end Pipeline

end Scan

end EdgeScan
