import EdgeScan.Proofs.Scan.Results
import Mathlib.Data.Int.ConditionallyCompleteOrder
import Mathlib.Tactic.Linarith
import Mathlib.Tactic.Ring

/-!
The statistics of a scan. Each counter is bumped by another task and at another point of a
candidate's way, so no two of them are in step. That they fit together all the same is read off
accounts which pay a fixed rate for each of them.
-/
namespace EdgeScan

namespace Summary

/-- The candidates that came through the last enabled filter up to a given one; all candidates if
none of these is enabled. -/
def through (a : Summary) (o : Options) : Scan.Stage → ℕ
  | .icmp => if o.icmpFilter then a.icmpPassed else a.candidates
  | .tcp =>
    if o.tcpFilter then a.tcpPassed else if o.icmpFilter then a.icmpPassed else a.candidates

/-- No counter of `a` is larger than that of `b`, nor is the number of results. -/
structure GrowsTo (a b : Summary) : Prop where
  candidates : a.candidates ≤ b.candidates
  icmpPassed : a.icmpPassed ≤ b.icmpPassed
  tcpPassed : a.tcpPassed ≤ b.tcpPassed
  handshakesOk : a.handshakesOk ≤ b.handshakesOk
  handshakesFailed : a.handshakesFailed ≤ b.handshakesFailed
  found : a.found ≤ b.found

namespace GrowsTo

variable {a b c : Summary}

lemma refl (a : Summary) : a.GrowsTo a := ⟨le_rfl, le_rfl, le_rfl, le_rfl, le_rfl, le_rfl⟩

lemma trans (first : a.GrowsTo b) (second : b.GrowsTo c) : a.GrowsTo c where
  candidates := first.candidates.trans second.candidates
  icmpPassed := first.icmpPassed.trans second.icmpPassed
  tcpPassed := first.tcpPassed.trans second.tcpPassed
  handshakesOk := first.handshakesOk.trans second.handshakesOk
  handshakesFailed := first.handshakesFailed.trans second.handshakesFailed
  found := first.found.trans second.found

end GrowsTo

end Summary

namespace Scan

variable {o : Options} {replies : Replies} {i : ℕ} {more : Bool}

lemma FilterWork.Move.growsTo {stage : Stage} {l : Ledger} {p : Pool FilterWork} {room : Room}
    {n : FilterStep} (move : Move o replies stage l p i more room n) :
    l.summary.GrowsTo n.ledger.summary := by
  cases move with
  | turn | skip | send | quit | drop | panic => exact .refl _
  | call => cases stage <;> exact .refl _
  | pass =>
    cases stage with
    | icmp => exact { Summary.GrowsTo.refl _ with icmpPassed := Nat.le_succ _ }
    | tcp => exact { Summary.GrowsTo.refl _ with tcpPassed := Nat.le_succ _ }
  | @fail c e =>
    obtain ⟨journal, same⟩ := l.exists_noteFailure_eq e
    rw [same]
    exact .refl _

lemma DialWork.Move.growsTo {l l' : Ledger} {p p' : Pool DialWork} {entered : List Measurement}
    (move : Move o replies l p i more entered l' p') : l.summary.GrowsTo l'.summary := by
  cases move with
  | turn | call | panic | enough | proceed | stop => exact .refl _
  | succeed => exact { Summary.GrowsTo.refl _ with handshakesOk := Nat.le_succ _ }
  | @fail t e =>
    obtain ⟨failed, journal, same, more⟩ := l.exists_failHandshake_eq e
    rw [same]
    exact { Summary.GrowsTo.refl _ with handshakesFailed := more ▸ Nat.le_add_right _ _ }
  | @rank m =>
    obtain ⟨journal, same⟩ := l.exists_enqueue_eq m
    rw [same]
    exact { Summary.GrowsTo.refl _ with found := l.ranking.size_le_size_enqueue m }

theorem Pipeline.growsTo_of_reaches {s s' : Pipeline} {later : List Measurement}
    (reached : Reaches o replies s later s') : s.ledger.summary.GrowsTo s'.ledger.summary := by
  refine reached.invariant (P := fun _ s' => s.ledger.summary.GrowsTo s'.ledger.summary)
    (.refl _) ?_
  intro _ t _ t' _ ih move
  refine ih.trans ?_
  cases move with
  | cancel | report => exact .refl _
  | act act =>
    cases act with
    | feedSends | feedEnds => exact .refl _
    | icmp move | tcp move => exact move.growsTo
    | dial move => exact move.growsTo

/-- What an account pays for a candidate that passes a filter, and for a handshake that is made. -/
structure Rates where
  icmp : ℤ
  tcp : ℤ
  handshake : ℤ

namespace Rates

variable (r : Rates)

def passed : Stage → ℤ
  | .icmp => r.icmp
  | .tcp => r.tcp

/-- What is paid for a candidate behind a filter, if it is not dropped any more. -/
def behind (o : Options) : Stage → ℤ
  | .icmp => if o.tcpFilter then r.tcp + r.handshake else r.handshake
  | .tcp => r.handshake

/-- What is paid for a candidate in front of a filter, if it is not dropped any more. -/
def due (o : Options) (stage : Stage) : ℤ :=
  if stage.enabled o then r.passed stage + r.behind o stage else r.behind o stage

/-- What the counters of a ledger cost. -/
def paid (l : Ledger) : ℤ :=
  r.icmp * l.icmpPassed + r.tcp * l.tcpPassed + r.handshake * (l.handshakesOk + l.handshakesFailed)

/-- Every candidate is worth what will be paid for it if it is not dropped. -/
def valuation (o : Options) : Valuation ℤ where
  before stage _ := r.due o stage
  probing stage _ := r.passed stage + r.behind o stage
  queued _ := r.handshake
  dialling _ := r.handshake
  found _ := 0
  book l _ := r.paid l

/-- Nothing is ever owed for a candidate that is dropped or a handshake that is not made. -/
structure IsNonneg (o : Options) : Prop where
  handshake : 0 ≤ r.handshake
  probing (stage : Stage) : 0 ≤ r.passed stage + r.behind o stage

variable {r} {source : Source} {cancelled : Bool} {journal : List Event}
  {candidates : List Endpoint} {history : List Measurement} {s : Pipeline}

lemma IsNonneg.due (nonneg : r.IsNonneg o) (stage : Stage) : 0 ≤ r.due o stage := by
  have probing := nonneg.probing stage
  have tcp := nonneg.probing .tcp
  have handshake := nonneg.handshake
  unfold Rates.due
  split
  · exact probing
  · cases stage with
    | icmp =>
      simp only [behind]
      split <;> assumption
    | tcp => exact handshake

lemma valuation_nonneg (nonneg : r.IsNonneg o) : (r.valuation o).IsNonneg where
  before stage _ := nonneg.due stage
  probing stage _ := nonneg.probing stage
  queued _ := nonneg.handshake
  dialling _ := nonneg.handshake
  found _ := le_rfl

lemma after_valuation (r : Rates) (o : Options) (stage : Stage) (c : Endpoint) :
    (r.valuation o).after stage c = r.behind o stage := by
  cases stage <;> rfl

/-- The account is lawful. It is exact if nothing is paid for what a filter may still drop, and no
handshake gets lost. -/
theorem valuation_lawful {exact : Prop} (nonneg : r.IsNonneg o)
    (free : exact → ∀ stage, r.passed stage + r.behind o stage = 0)
    (honest : exact → ∀ t, ¬replies false none t (.failed .cancelled))
    (steady : exact → Steady o replies none) : (r.valuation o).Lawful o replies exact where
  before_nonneg stage _ := nonneg.due stage
  queued_nonneg _ := nonneg.handshake
  call c enabled := by simp [valuation, due, enabled]
  skip c disabled := by
    rw [after_valuation]
    simp [valuation, due, disabled]
  pass {stage} {c} {_} {_} l history answer clears := by
    rw [after_valuation]
    cases stage <;> simp only [valuation, passed, paid, Ledger.pass] <;> push_cast <;> ring
  drop {stage} {_} {_} {_} answer blocked :=
    ⟨nonneg.probing stage, fun he _ => (free he stage).symm⟩
  dial l history drawn := rfl
  succeed l history answer := by
    simp only [valuation, paid, Ledger.succeed, Ledger.note]
    push_cast
    ring
  refuse {t} {e} l history answer := by
    obtain ⟨failed, journal, same, count⟩ := l.exists_failHandshake_eq e
    have handshake := nonneg.handshake
    rw [same]
    cases shutdown : e.isCancelled || l.cancelled with
    | false =>
      refine .of_eq ?_
      simp only [valuation, paid, count, shutdown, Bool.not_false, Bool.toNat_true]
      push_cast
      ring
    | true =>
      simp only [shutdown, Bool.not_true, Bool.toNat_false, add_zero] at count
      refine ⟨?_, fun he running => ?_⟩
      · simp only [valuation, paid, count]
        linarith
      · cases e <;> simp [running, ProbeError.isCancelled] at shutdown
        exact absurd (running ▸ answer) (honest he t)
  panic {t} {_} answer := ⟨nonneg.handshake, fun he _ => absurd answer (steady he _ t)⟩
  rank l history m := by
    obtain ⟨journal, same⟩ := l.exists_enqueue_eq m
    rw [same]
    exact (add_zero _).symm
  book_note _ _ _ := rfl
  book_cancel _ _ := rfl
  book_call _ _ stage _ := by cases stage <;> rfl
  book_source _ _ _ := rfl

/-- Where a panic of a filter could leave candidates behind, nothing is due for them. -/
lemma steadyFrom_or_due_eq_zero (free : ∀ stage, r.passed stage + r.behind o stage = 0)
    (steady : Steady o replies none) (stage : Stage) :
    SteadyFrom o replies (some stage) ∨ r.due o stage = 0 := by
  have tcp : Steady o replies (some .tcp) ∨ r.due o .tcp = 0 := by
    cases enabled : o.tcpFilter with
    | true => exact .inr ((if_pos enabled).trans (free .tcp))
    | false => exact .inl fun h => absurd h (by simp [Stage.enabled, enabled])
  cases stage with
  | tcp => exact tcp.imp_left fun quiet => ⟨quiet, steady⟩
  | icmp =>
    cases enabled : o.icmpFilter with
    | true => exact .inr ((if_pos enabled).trans (free .icmp))
    | false =>
      have off : Stage.icmp.enabled o = false := enabled
      rcases tcp with quiet | nothing
      · exact .inl ⟨fun h => absurd h (by simp [off]), quiet, steady⟩
      · right
        rw [due, off]
        exact nothing

lemma paid_opened (r : Rates) (o : Options) (source : Source) (cancelled : Bool)
    (journal : List Event) (candidates : List Endpoint) :
    r.paid (Pipeline.opened o source cancelled journal candidates).ledger = 0 := by
  simp [paid, Pipeline.opened, Pipeline.start, Ledger.start]

theorem paid_le_of_reaches (nonneg : r.IsNonneg o)
    (reached : Pipeline.Reaches o replies (.opened o source cancelled journal candidates)
      history s) : r.paid s.ledger ≤ candidates.length * r.due o .icmp := by
  have le := Valuation.book_le_of_reaches (v := r.valuation o)
    (valuation_lawful nonneg False.elim False.elim False.elim) (valuation_nonneg nonneg) reached
  simpa [valuation, paid_opened] using le

theorem paid_of_isDone (nonneg : r.IsNonneg o)
    (free : ∀ stage, r.passed stage + r.behind o stage = 0)
    (honest : ∀ t, ¬replies false none t (.failed .cancelled)) (steady : Steady o replies none)
    (reached : Pipeline.Reaches o replies (.opened o source cancelled journal candidates) history s)
    (done : s.isDone = true) (running : s.ledger.cancelled = false) :
    r.paid s.ledger = candidates.length * r.due o .icmp := by
  have secure : (r.valuation o).Secure o replies :=
    ⟨(steadyFrom_or_due_eq_zero free steady .icmp).imp_right fun nothing _ => nothing,
      (steadyFrom_or_due_eq_zero free steady .tcp).imp_right fun nothing _ => nothing, .inl steady⟩
  have balance := Valuation.book_of_isDone (v := r.valuation o)
    (valuation_lawful nonneg (fun _ => free) (fun _ => honest) fun _ => steady) secure reached done
    running
  simpa [valuation, paid_opened] using balance

/-- Pays for what passes ICMP. -/
def ofIcmp : Rates := ⟨1, 0, 0⟩

/-- Pays for what passes TCP, and takes it off what passed ICMP in front of it. -/
def ofTcp (o : Options) : Rates := ⟨if o.tcpFilter then -1 else 0, 1, 0⟩

/-- Pays for handshakes, and takes them off what passed the last enabled filter. -/
def ofHandshakes (o : Options) : Rates := ⟨if o.tcpFilter then 0 else -1, -1, 1⟩

lemma ofIcmp_nonneg (o : Options) : ofIcmp.IsNonneg o := by
  refine ⟨le_rfl, fun stage => ?_⟩
  cases stage <;> simp [ofIcmp, passed, behind]

lemma ofTcp_nonneg (o : Options) : (ofTcp o).IsNonneg o := by
  refine ⟨le_rfl, fun stage => ?_⟩
  cases stage <;> cases tcp : o.tcpFilter <;> simp [ofTcp, passed, behind, tcp]

lemma ofHandshakes_free (o : Options) (stage : Stage) :
    (ofHandshakes o).passed stage + (ofHandshakes o).behind o stage = 0 := by
  cases stage <;> cases tcp : o.tcpFilter <;> simp [ofHandshakes, passed, behind, tcp]

lemma ofHandshakes_nonneg (o : Options) : (ofHandshakes o).IsNonneg o :=
  ⟨zero_le_one, fun stage => (ofHandshakes_free o stage).ge⟩

end Rates

namespace Pipeline

variable {source : Source} {cancelled : Bool} {journal : List Event} {candidates : List Endpoint}
  {history : List Measurement} {s : Pipeline}

/-- No stage lets more candidates through than the one in front of it. -/
theorem through_le_of_reaches
    (reached : Reaches o replies (opened o source cancelled journal candidates) history s) :
    let a := s.ledger.summary
    a.handshakesOk + a.handshakesFailed ≤ a.through o .tcp ∧
      a.through o .tcp ≤ a.through o .icmp ∧ a.through o .icmp ≤ a.candidates ∧
      (o.icmpFilter = false → a.icmpPassed = 0) ∧ (o.tcpFilter = false → a.tcpPassed = 0) := by
  intro a
  have all : s.ledger.candidates = candidates.length := (ranking_of_reaches reached).2
  have icmp := Rates.paid_le_of_reaches (Rates.ofIcmp_nonneg o) reached
  have tcp := Rates.paid_le_of_reaches (Rates.ofTcp_nonneg o) reached
  have handshakes := Rates.paid_le_of_reaches (Rates.ofHandshakes_nonneg o) reached
  simp only [Rates.paid, Rates.due, Rates.passed, Rates.behind, Stage.enabled, Rates.ofIcmp,
    Rates.ofTcp, Rates.ofHandshakes] at icmp tcp handshakes
  simp only [a, Summary.through, Ledger.summary, all]
  cases icmpOn : o.icmpFilter <;> cases tcpOn : o.tcpFilter <;>
    simp [icmpOn, tcpOn] at icmp tcp handshakes ⊢ <;> omega

/-- When all tasks of a scan that was not cancelled have ended, a handshake was made for each
candidate that came through the filters. -/
theorem handshakes_of_isDone (honest : ∀ t, ¬replies false none t (.failed .cancelled))
    (steady : Steady o replies none)
    (reached : Reaches o replies (opened o source cancelled journal candidates) history s)
    (done : s.isDone = true) (running : s.ledger.cancelled = false) :
    let a := s.ledger.summary
    a.handshakesOk + a.handshakesFailed = a.through o .tcp := by
  intro a
  have all : s.ledger.candidates = candidates.length := (ranking_of_reaches reached).2
  have off := (through_le_of_reaches reached).2.2.2
  have balance := Rates.paid_of_isDone (Rates.ofHandshakes_nonneg o) (Rates.ofHandshakes_free o)
    honest steady reached done running
  simp only [Rates.paid, Rates.due, Rates.passed, Rates.behind, Stage.enabled,
    Rates.ofHandshakes] at balance
  simp only [a, Summary.through, Ledger.summary, all] at off ⊢
  cases icmpOn : o.icmpFilter <;> cases tcpOn : o.tcpFilter <;>
    simp [icmpOn, tcpOn] at balance off ⊢ <;> omega

/-- The statistics of a scan are consistent at every moment. No stage lets more candidates through
than the one in front of it, counters of filters that are switched off stay 0, and nothing ever
decreases. The ranking holds all results that were entered, or as many as it can keep, and those are
successful handshakes. When all tasks have ended every successful handshake has been entered; and if
the scan was not cancelled, and no handshake has panicked, each candidate that came through the
filters was counted as a success or as a failure. -/
theorem statistics_consistent (honest : ∀ t, ¬replies false none t (.failed .cancelled))
    (reached : Reaches o replies (opened o source cancelled journal candidates) history s) :
    let a := s.ledger.summary
    let kept (n : ℕ) := if o.capacity = 0 then n else min n o.capacity
    a.candidates = candidates.length ∧
    (a.handshakesOk + a.handshakesFailed ≤ a.through o .tcp ∧
      a.through o .tcp ≤ a.through o .icmp ∧ a.through o .icmp ≤ a.candidates ∧
      (o.icmpFilter = false → a.icmpPassed = 0) ∧ (o.tcpFilter = false → a.tcpPassed = 0)) ∧
    (∀ later s', Reaches o replies s later s' → a.GrowsTo s'.ledger.summary) ∧
    a.found = kept history.length ∧ history.length ≤ a.handshakesOk ∧
    (s.isDone = true → a.found = kept a.handshakesOk) ∧
    (s.isDone = true → s.ledger.cancelled = false →
      (∀ cancelled t, ¬replies cancelled none t .panicked) →
      a.handshakesOk + a.handshakesFailed = a.through o .tcp) := by
  intro a kept
  have found : a.found = kept history.length := (accepted_of_reaches reached).size
  have ok : a.handshakesOk = history.length + s.dial.inHand DialWork.measured :=
    handshakesOk_of_reaches reached
  refine ⟨(ranking_of_reaches reached).2, through_le_of_reaches reached,
    fun _ _ => growsTo_of_reaches, found, ok ▸ Nat.le_add_right _ _, fun done => ?_,
    fun done running steady => handshakes_of_isDone honest steady reached done running⟩
  have ended : s.dial.isDone = true := by
    simp only [isDone, Bool.and_eq_true] at done
    exact done.2
  rw [found, ok, Pool.inHand_of_isDone rfl ended, Nat.add_zero]

/-- Five candidates. Either filter drops one of them, a handshake fails, and only the better one of
two results is kept. -/
theorem statistics_consistent_five_candidates :
    let c (n : UInt32) := Endpoint.v4 ⟨0x0A000000 + n⟩ 2408
    let o : Options := { icmpFilter := true, workers := 2, capacity := 1 }
    let f : Answers := fun stage t =>
      if t = match stage with
        | some .icmp => c 1
        | some .tcp => Stage.tcp.target o (c 2)
        | none => c 3
      then .error .timeout else .ok (t, .ofMillis 1)
    ∃ history s,
      Reaches o f.replies (opened o default false [] [c 1, c 2, c 3, c 4, c 5]) history s ∧
      s.isDone = true ∧ s.ledger.cancelled = false ∧
      s.ledger.handshakesOk = 2 ∧ s.ledger.summary.found = 1 ∧
      s.ledger.summary.handshakesOk + s.ledger.summary.handshakesFailed =
        s.ledger.summary.through o .tcp := by
  intro c o f
  let start := opened o default false [] [c 1, c 2, c 3, c 4, c 5]
  let run := serveAll o f [] start (List.replicate 24 start.tasks).flatten
  have ends : run.2.isDone ∧ run.2.ledger.cancelled = false ∧ run.2.ledger.handshakesOk = 2 ∧
      run.2.ledger.summary.found = 1 := by
    decide +kernel
  have reached : Reaches o f.replies start run.1 run.2 := reaches_of_serveAll _ .start
  have honest (t : Endpoint) : ¬f.replies false none t (.failed .cancelled) := by
    simp only [Answers.replies, f]
    split <;> simp
  have consistent := statistics_consistent honest reached
  exact ⟨run.1, run.2, reached, ends.1, ends.2.1, ends.2.2.1, ends.2.2.2,
    consistent.2.2.2.2.2.2 ends.1 ends.2.1 fun _ _ => id⟩

/-- Serves tasks in a given order while every probe panics, and passes over those that cannot take a
step. -/
def panicAll (o : Options) (start : Pipeline) (schedule : List PipelineTask) : Pipeline :=
  schedule.foldl (fun s task =>
    let action : PipelineAction :=
      if (s.awaited o task).isSome then .answer task .panicked else .advance task
    (s.step o action).getD s) start

lemma exists_reaches_of_panicAll {start : Pipeline} (schedule : List PipelineTask)
    (panics : ∀ cancelled stage target, replies cancelled stage target .panicked) :
    ∃ history, Reaches o replies start history (panicAll o start schedule) := by
  refine List.foldlRecOn (motive := fun s => ∃ history, Reaches o replies start history s)
    schedule _ ⟨[], .start⟩ ?_
  rintro s ⟨history, before⟩ task -
  dsimp only
  cases waits : s.awaited o task with
  | none =>
    simp only [Option.isSome_none, Bool.false_eq_true, if_false]
    cases step : s.step o (.advance task) with
    | none => exact ⟨history, before⟩
    | some s' => exact ⟨_, before.step (a := .advance task) trivial step⟩
  | some call =>
    simp only [Option.isSome_some, if_true]
    cases step : s.step o (.answer task .panicked) with
    | none => exact ⟨history, before⟩
    | some s' =>
      exact ⟨_, before.step (a := .answer task .panicked) ⟨_, _, waits, panics _ _ _⟩ step⟩

/-- One candidate, whose handshake panics. It is counted neither as a success nor as a failure. -/
theorem panicked_handshake_not_counted :
    let c := Endpoint.v4 ⟨0x0A000001⟩ 2408
    let o : Options := { tcpFilter := false, workers := 1 }
    let replies : Replies := fun _ _ _ outcome => outcome = .panicked
    (∀ t, ¬replies false none t (.failed .cancelled)) ∧
    ∃ history s, Reaches o replies (opened o default false [] [c]) history s ∧
      s.isDone = true ∧ s.ledger.cancelled = false ∧ s.ledger.summary.through o .tcp = 1 ∧
      s.ledger.summary.handshakesOk + s.ledger.summary.handshakesFailed = 0 := by
  intro c o replies
  let start := opened o default false [] [c]
  let final := panicAll o start (List.replicate 12 start.tasks).flatten
  obtain ⟨history, reached⟩ : ∃ history, Reaches o replies start history final :=
    exists_reaches_of_panicAll _ fun _ _ _ => rfl
  have ends : final.isDone = true ∧ final.ledger.cancelled = false ∧
      final.ledger.summary.through o .tcp = 1 ∧
      final.ledger.summary.handshakesOk + final.ledger.summary.handshakesFailed = 0 := by
    decide +kernel
  exact ⟨fun _ => by simp [replies], history, final, reached, ends⟩

end Pipeline

end Scan

end EdgeScan
