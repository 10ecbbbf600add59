import EdgeScan.Proofs.Scan.Closing
import Mathlib.Data.Multiset.OrderedMonoid

/-!
The flow of candidates. Whatever the order of actions, the handshake workers dial only candidates
that pass both filters, and none more often than it was given; a scan that ends without being
cancelled has dialled all of them.
-/
namespace EdgeScan.Scan

namespace Answers

variable (f : Answers) (o : Options)

/-- Whether the probe of a filter finds a candidate near enough. -/
def clears (stage : Stage) (c : Endpoint) : Bool :=
  match f (some stage) (stage.target o c) with
  | .ok (_, rtt) => rtt ≤ stage.limit o
  | .error _ => false

def passes (stage : Stage) (c : Endpoint) : Bool := !stage.enabled o || f.clears o stage c

/-- Whether a candidate passes every filter that is switched on. -/
def survives (c : Endpoint) : Bool := f.passes o .icmp c && f.passes o .tcp c

variable {f o} {stage : Stage} {c : Endpoint}

/-- While a scan goes on, and wherever something is measured, a probe gives its own answer. -/
theorem clears_of_replies {cancelled : Bool} {outcome : Outcome}
    (answer : f.replies cancelled (some stage) (stage.target o c) outcome)
    (own : outcome.clears (stage.limit o) = true ∨ cancelled = false) :
    f.clears o stage c = outcome.clears (stage.limit o) := by
  cases outcome with
  | measured m => simp only [clears, show f _ _ = _ from answer, Outcome.clears]
  | failed e =>
    have running : cancelled = false := own.resolve_left (by simp [Outcome.clears])
    have error : f (some stage) (stage.target o c) = .error e :=
      answer.resolve_right (by simp [running])
    simp only [clears, error, Outcome.clears]
  | panicked => exact answer.elim

lemma not_replies_panicked (f : Answers) (cancelled : Bool) (stage : Option Stage)
    (t : Endpoint) : ¬f.replies cancelled stage t .panicked := id

lemma passes_of_enabled (enabled : stage.enabled o = true) :
    f.passes o stage c = f.clears o stage c := by
  simp [passes, enabled]

lemma passes_of_disabled (disabled : stage.enabled o = false) : f.passes o stage c = true := by
  simp [passes, disabled]

end Answers

/-- The candidates that were handed to the handshake probe. -/
def Pipeline.dialled (s : Pipeline) : Multiset Endpoint := s.ledger.dials.map Dial.candidate

/-- A candidate itself where it is going to be dialled, nothing where it is going to be dropped. -/
def flow (f : Answers) (o : Options) : Valuation (Multiset Endpoint) where
  before stage c :=
    match stage with
    | .icmp => if f.survives o c then {c} else 0
    | .tcp => if f.passes o .tcp c then {c} else 0
  probing stage c :=
    match stage with
    | .icmp => if f.clears o .icmp c && f.passes o .tcp c then {c} else 0
    | .tcp => if f.clears o .tcp c then {c} else 0
  queued c := {c}
  dialling _ := 0
  found _ := 0
  book l _ := l.dials.map Dial.candidate

lemma flow_lawful (f : Answers) (o : Options) (exact : Prop) :
    (flow f o).Lawful o f.replies exact where
  before_nonneg _ _ := Multiset.zero_le _
  queued_nonneg _ := Multiset.zero_le _
  call {stage} c enabled := by
    cases stage <;> simp [flow, Answers.survives, Answers.passes_of_enabled enabled]
  skip {stage} c disabled := by
    cases stage <;>
      simp [flow, Valuation.after, Answers.survives, Answers.passes_of_disabled disabled]
  pass {stage} {c} {_} {_} l history answer clears := by
    have near : f.clears o stage c = true :=
      (Answers.clears_of_replies answer (.inl clears)).trans clears
    cases stage <;> simp [flow, Valuation.after, near, Ledger.pass]
  drop {stage} {c} {_} {_} answer blocked := by
    refine ⟨Multiset.zero_le _, fun _ running => ?_⟩
    have far : f.clears o stage c = false :=
      (Answers.clears_of_replies answer (.inr running)).trans blocked
    cases stage <;> simp [flow, far]
  dial l history drawn := by
    simp only [flow, Ledger.dial, List.map_cons, add_zero, ← Multiset.cons_coe]
    exact (Multiset.singleton_add _ _).symm.trans (add_comm _ _)
  succeed l history answer := rfl
  refuse l history answer := by
    refine .of_eq ?_
    simp only [flow, Ledger.failHandshake, add_zero]
    split <;> rfl
  panic answer := answer.elim
  rank l history m := by
    simp only [flow, Ledger.enqueue, add_zero]
    split <;> rfl
  book_note _ _ _ := rfl
  book_cancel _ _ := rfl
  book_call _ _ stage _ := by cases stage <;> rfl
  book_source _ _ _ := rfl

theorem handshakePort_of_ne_zero (o : Options) {port : UInt16} (h : port ≠ 0) (source : Source) :
    (handshakePort o port).run source = (port, source) := by
  unfold handshakePort
  rw [if_pos h]
  rfl

/-- What a handshake is made for: the address of the candidate, and its port if it has one. -/
def Dial.IsFaithful (d : Dial) : Prop :=
  d.target.address = d.candidate.address ∧
    (d.candidate.port ≠ 0 → d.target.port = d.candidate.port)

namespace Pipeline

variable {o : Options} {f : Answers} {replies : Replies} {s s' : Pipeline} {source : Source}
  {cancelled : Bool} {journal : List Event} {candidates : List Endpoint}
  {history entered : List Measurement}

theorem dials_of_move (move : s.Move o replies entered s') :
    s'.ledger.dials = s.ledger.dials ∨ ∃ c source, s'.ledger.dials =
      ⟨c, .new c.address ((handshakePort o c.port).run source).1⟩ :: s.ledger.dials := by
  cases move with
  | cancel | report => exact .inl rfl
  | act act =>
    cases act with
    | feedSends | feedEnds => exact .inl rfl
    | @icmp i n move | @tcp i n move =>
      left
      cases move with
      | turn | call | skip | send | quit | pass | drop | panic => rfl
      | fail =>
        simp only [Ledger.noteFailure]
        split <;> rfl
    | dial move =>
      cases move with
      | turn | succeed | panic | enough | proceed | stop => exact .inl rfl
      | @call c port source here drawn =>
        refine .inr ⟨c, s.ledger.source, ?_⟩
        rw [drawn]
        rfl
      | fail =>
        left
        simp only [Ledger.failHandshake]
        split <;> rfl
      | rank =>
        left
        simp only [Ledger.enqueue]
        split <;> rfl

/-- What holds of every candidate at every port that can be settled for it holds of all handshakes
that are made. -/
theorem forall_dials_of_reaches {P : Dial → Prop}
    (settled : ∀ c source, P ⟨c, .new c.address ((handshakePort o c.port).run source).1⟩)
    (reached : Reaches o replies (opened o source cancelled journal candidates) history s) :
    ∀ d ∈ s.ledger.dials, P d := by
  refine reached.invariant (P := fun _ s => ∀ d ∈ s.ledger.dials, P d) ?_ ?_
  · intro d hd
    exact absurd hd List.not_mem_nil
  · intro history s entered s' _ ih move
    rcases dials_of_move move with same | ⟨c, source, more⟩
    · rwa [same]
    · rw [more]
      exact List.forall_mem_cons.mpr ⟨settled c source, ih⟩

lemma isFaithful_of_reaches
    (reached : Reaches o replies (opened o source cancelled journal candidates) history s) :
    ∀ d ∈ s.ledger.dials, d.IsFaithful := by
  refine forall_dials_of_reaches (fun c source => ⟨Endpoint.address_new _ _, fun own => ?_⟩) reached
  rw [handshakePort_of_ne_zero o own]
  exact Endpoint.port_new _ _

theorem sum_flow (f : Answers) (o : Options) (candidates : List Endpoint) :
    (candidates.map ((flow f o).before .icmp)).sum =
      (candidates.filter (f.survives o) : Multiset Endpoint) := by
  induction candidates with
  | nil => rfl
  | cons c rest ih =>
    rw [List.map_cons, List.sum_cons, ih, List.filter_cons]
    cases h : f.survives o c
    · simp [flow, h]
    · simp [flow, h, ← Multiset.cons_coe]

lemma flow_nonneg (f : Answers) (o : Options) : (flow f o).IsNonneg where
  before _ _ := Multiset.zero_le _
  probing _ _ := Multiset.zero_le _
  queued _ := Multiset.zero_le _
  dialling _ := Multiset.zero_le _
  found _ := Multiset.zero_le _

lemma dialled_le (reached : Reaches o f.replies (opened o source cancelled journal candidates)
    history s) : s.dialled ≤ candidates.filter (f.survives o) := by
  have le := Valuation.book_le_of_reaches (flow_lawful f o False) (flow_nonneg f o) reached
  rw [sum_flow] at le
  exact le.trans (le_of_eq (zero_add _))

lemma dialled_of_isDone (reached : Reaches o f.replies
    (opened o source cancelled journal candidates) history s) (done : s.isDone = true)
    (running : s.ledger.cancelled = false) : s.dialled = candidates.filter (f.survives o) := by
  have balance := Valuation.book_of_isDone (flow_lawful f o True)
    (Valuation.secure_of_quiet _ o f.not_replies_panicked) reached done running
  rw [sum_flow] at balance
  exact balance.trans (zero_add _)

/-- The handshake workers dial nothing but candidates that pass every filter that is switched on,
each with its own address and port, and no more often than it was given. When all tasks of a scan
that was not cancelled have ended they have dialled all of them; so if all candidates pass, filters
make no difference. -/
theorem dialled_survivors
    (reached : Reaches o f.replies (opened o source cancelled journal candidates) history s) :
    s.dialled ≤ candidates.filter (f.survives o) ∧ (∀ d ∈ s.ledger.dials, d.IsFaithful) ∧
    (s.isDone = true → s.ledger.cancelled = false →
      s.dialled = candidates.filter (f.survives o) ∧
      ((∀ c ∈ candidates, f.survives o c = true) →
        ∀ {o' : Options} {f' : Answers} {source' : Source} {journal' : List Event}
          {history' : List Measurement} {s' : Pipeline}, o'.icmpFilter = false →
          o'.tcpFilter = false → Completes o' f' source' journal' candidates history' s' →
          s'.dialled = s.dialled)) := by
  refine ⟨dialled_le reached, isFaithful_of_reaches reached, fun done running => ?_⟩
  have all := dialled_of_isDone reached done running
  refine ⟨all, fun permissive o' f' source' journal' history' s' icmp tcp bypassed => ?_⟩
  have open_ (c : Endpoint) : f'.survives o' c = true := by
    simp [Answers.survives, Answers.passes, Stage.enabled, icmp, tcp]
  rw [all, dialled_of_isDone bypassed.reached bypassed.done bypassed.running,
    List.filter_eq_self.mpr permissive, List.filter_eq_self.mpr fun c _ => open_ c]

/-- Two candidates and an ICMP filter that only the first one answers. -/
theorem dialled_survivors_one_of_two :
    let near := Endpoint.v4 ⟨0x0A000001⟩ 2408
    let far := Endpoint.v4 ⟨0x0A000002⟩ 0
    let o : Options := { icmpFilter := true, tcpFilter := false, workers := 1 }
    let f : Answers := fun stage t =>
      if stage.isSome ∧ t = near then .ok (t, .ofMillis 1) else .error .timeout
    ∃ history s, Reaches o f.replies (opened o default false [] [near, far]) history s ∧
      s.isDone = true ∧ s.ledger.cancelled = false ∧ s.dialled = {near} ∧
      s.dialled = [near, far].filter (f.survives o) := by
  intro near far o f
  let start := opened o default false [] [near, far]
  let run := serveAll o f [] start (List.replicate 12 start.tasks).flatten
  have ends : run.2.isDone ∧ run.2.ledger.cancelled = false ∧
      run.2.ledger.dials = [⟨near, near⟩] := by
    decide +kernel
  have reached : Reaches o f.replies start run.1 run.2 := reaches_of_serveAll _ .start
  have dialled : run.2.dialled = {near} := by
    rw [Pipeline.dialled, ends.2.2]
    rfl
  exact ⟨run.1, run.2, reached, ends.1, ends.2.1, dialled,
    ((dialled_survivors reached).2.2 ends.1 ends.2.1).1⟩

end Pipeline

end EdgeScan.Scan
