import EdgeScan.Proofs.Scan.Flow
import EdgeScan.Proofs.Scan.Results
import Mathlib.Algebra.Order.Group.Nat
import Mathlib.Algebra.Order.Monoid.Prod

/-!
The outcome of a scan that is not cancelled. However its tasks take turns, and however many there
are, the counters come out the same, and the ranking holds the fastest of the same results.
-/
namespace EdgeScan

/-- A result without the time at which it was measured. -/
def Measurement.pair (m : Measurement) : Endpoint × Duration := (m.endpoint, m.rtt)

namespace Scan

namespace Answers

variable (f : Answers) (o : Options)

/-- The answer to the handshake for a candidate, if a port is configured. -/
def handshake (c : Endpoint) : Except ProbeError (Endpoint × Duration) :=
  f none (.new c.address (if c.port ≠ 0 then c.port else o.port))

/-- What the handshakes of the candidates that pass the filters measure. -/
def successes (candidates : List Endpoint) : List (Endpoint × Duration) :=
  (candidates.filter (f.survives o)).filterMap fun c => (f.handshake o c).toOption

/-- The round trips of the fastest of them, in ascending order, as many as are kept. -/
def fastest (candidates : List Endpoint) : List Duration :=
  Ranking.truncate o.capacity
    (((f.successes o candidates).map Prod.snd).mergeSort fun a b => decide (a ≤ b))

variable {f o}

lemma count_of_mem_fastest {candidates : List Endpoint}
    (distinct : ((f.successes o candidates).map Prod.snd).Nodup) :
    ∀ rtt ∈ f.fastest o candidates, ((f.successes o candidates).map Prod.snd).count rtt = 1 := by
  intro rtt kept
  refine List.count_eq_one_of_mem distinct ?_
  exact (List.mergeSort_perm _ _).subset ((Ranking.truncate_sublist _ _).subset kept)

end Answers

/-- The candidates that passed either filter, the handshakes that were successful and those that
failed, and the results that were entered. -/
abbrev Tally := ℕ × ℕ × ℕ × ℕ × Multiset (Endpoint × Duration)

namespace Tally

def passed : Stage → Tally
  | .icmp => (1, 0, 0, 0, 0)
  | .tcp => (0, 1, 0, 0, 0)

def verdict : Except ProbeError (Endpoint × Duration) → Tally
  | .ok x => (0, 0, 1, 0, {x})
  | .error _ => (0, 0, 0, 1, 0)

/-- What a candidate contributes from a filter on, if it contributes `behind` after it. -/
def through (f : Answers) (o : Options) (stage : Stage) (behind : Tally) (c : Endpoint) : Tally :=
  if f.clears o stage c then passed stage + behind else 0

def entry (f : Answers) (o : Options) (stage : Stage) (behind : Tally) (c : Endpoint) : Tally :=
  if stage.enabled o then through f o stage behind c else behind

/-- What a candidate contributes that is in front of a filter. -/
def before (f : Answers) (o : Options) : Stage → Endpoint → Tally
  | .icmp, c => entry f o .icmp (entry f o .tcp (verdict (f.handshake o c)) c) c
  | .tcp, c => entry f o .tcp (verdict (f.handshake o c)) c

lemma zero_le (t : Tally) : 0 ≤ t :=
  ⟨Nat.zero_le _, Nat.zero_le _, Nat.zero_le _, Nat.zero_le _, Multiset.zero_le _⟩

end Tally

/-- What each candidate is going to contribute to the outcome of a scan. -/
def tally (f : Answers) (o : Options) : Valuation Tally where
  before := Tally.before f o
  probing stage c :=
    match stage with
    | .icmp => Tally.through f o .icmp (Tally.before f o .tcp c) c
    | .tcp => Tally.through f o .tcp (Tally.verdict (f.handshake o c)) c
  queued c := Tally.verdict (f.handshake o c)
  dialling t := Tally.verdict (f none t)
  found m := (0, 0, 0, 0, {Measurement.pair m})
  book l history :=
    (l.icmpPassed, l.tcpPassed, l.handshakesOk, l.handshakesFailed, history.map Measurement.pair)

theorem handshakePort_of_port {o : Options} (h : o.port ≠ 0) {port candidatePort : UInt16}
    {source source' : Source}
    (drawn : (handshakePort o candidatePort).run source = (port, source')) :
    port = if candidatePort ≠ 0 then candidatePort else o.port := by
  by_cases own : candidatePort = 0
  · unfold handshakePort at drawn
    rw [if_neg (not_not.mpr own), if_pos h] at drawn
    rw [if_neg (not_not.mpr own)]
    exact (Prod.mk.inj drawn).1.symm
  · rw [if_pos own]
    exact (Prod.mk.inj ((handshakePort_of_ne_zero o own source).symm.trans drawn)).1.symm

lemma tally_lawful (f : Answers) (o : Options) (port : o.port ≠ 0)
    (steadfast : ∀ t, f none t ≠ .error .cancelled) : (tally f o).Lawful o f.replies True where
  before_nonneg _ _ := Tally.zero_le _
  queued_nonneg _ := Tally.zero_le _
  call {stage} c enabled := by
    cases stage <;> simp [tally, Tally.before, Tally.entry, enabled]
  skip {stage} c disabled := by
    cases stage <;> simp [tally, Valuation.after, Tally.before, Tally.entry, disabled]
  pass {stage} {c} {_} {_} l history answer clears := by
    have near : f.clears o stage c = true :=
      (Answers.clears_of_replies answer (.inl clears)).trans clears
    cases stage <;>
      simp [tally, Valuation.after, Tally.before, Tally.through, Tally.passed, near, Ledger.pass,
        ← add_assoc]
  drop {stage} {c} {_} {_} answer blocked := by
    refine ⟨Tally.zero_le _, fun _ running => ?_⟩
    have far : f.clears o stage c = false :=
      (Answers.clears_of_replies answer (.inr running)).trans blocked
    cases stage <;> simp [tally, Tally.through, far]
  dial {c} {_} {_} {_} l history drawn := by
    rw [handshakePort_of_port port drawn]
    rfl
  succeed {t} {m} l history answer := by
    have ok : f none t = .ok (m.endpoint, m.rtt) := answer
    simp [tally, ok, Tally.verdict, Ledger.succeed, Ledger.note, Measurement.pair]
  refuse {t} {e} l history answer := by
    cases cancelled : l.cancelled with
    | false =>
      have error : f none t = .error e := answer.resolve_right (by simp [cancelled])
      have kept : e.isCancelled = false := by
        cases e <;> first | rfl | exact absurd error (steadfast t)
      refine .of_eq ?_
      simp [tally, error, Tally.verdict, Ledger.failHandshake, Ledger.note, kept, cancelled]
    | true =>
      refine ⟨?_, fun _ running => absurd running (by simp)⟩
      simp only [Ledger.failHandshake, cancelled, Bool.or_true, if_true]
      exact le_add_of_nonneg_right (Tally.zero_le _)
  panic answer := answer.elim
  rank l history m := by
    have same : (tally f o).book (l.enqueue m) (history ++ [m]) =
        (tally f o).book l (history ++ [m]) := by
      simp only [tally, Ledger.enqueue]
      split <;> rfl
    rw [same]
    simp [tally, ← Multiset.coe_add]
  book_note _ _ _ := rfl
  book_cancel _ _ := rfl
  book_call _ _ stage _ := by cases stage <;> rfl
  book_source _ _ _ := rfl

theorem Tally.results_sum_before (f : Answers) (o : Options) (candidates : List Endpoint) :
    (candidates.map (Tally.before f o .icmp)).sum.2.2.2.2 = f.successes o candidates := by
  induction candidates with
  | nil => rfl
  | cons c rest ih =>
    have one : (Tally.before f o .icmp c).2.2.2.2 = f.successes o [c] := by
      unfold Answers.successes Answers.survives
      cases icmp : Stage.icmp.enabled o <;> cases tcp : Stage.tcp.enabled o <;>
        cases near : f.clears o .icmp c <;> cases open_ : f.clears o .tcp c <;>
        cases answer : f.handshake o c <;>
        simp [before, entry, through, passed, verdict, Answers.passes, icmp, tcp, near, open_,
          answer, Except.toOption]
    rw [List.map_cons, List.sum_cons, Prod.snd_add, Prod.snd_add, Prod.snd_add, Prod.snd_add, ih, one]
    have split : f.successes o (c :: rest) = f.successes o [c] ++ f.successes o rest := by
      unfold Answers.successes
      rw [← List.filterMap_append, ← List.filter_append, List.singleton_append]
    rw [split, Multiset.coe_add]

namespace Pipeline

variable {o : Options} {f : Answers} {replies : Replies} {s s' : Pipeline} {source : Source}
  {cancelled : Bool} {journal : List Event} {candidates : List Endpoint}
  {history entered : List Measurement}

theorem tally_of_completes (port : o.port ≠ 0) (steadfast : ∀ t, f none t ≠ .error .cancelled)
    (run : Completes o f source journal candidates history s) :
    (tally f o).book s.ledger history = (candidates.map (Tally.before f o .icmp)).sum := by
  have balance := Valuation.book_of_isDone (tally_lawful f o port steadfast)
    (Valuation.secure_of_quiet _ o f.not_replies_panicked) run.reached run.done run.running
  exact balance.trans (zero_add _)

theorem history_of_completes (port : o.port ≠ 0) (steadfast : ∀ t, f none t ≠ .error .cancelled)
    (run : Completes o f source journal candidates history s) :
    (history.map Measurement.pair).Perm (f.successes o candidates) := by
  have outcome := congrArg (·.2.2.2.2) (tally_of_completes port steadfast run)
  rw [Tally.results_sum_before] at outcome
  exact Multiset.coe_eq_coe.mp outcome

lemma entries_of_completes (run : Completes o f source journal candidates history s) :
    s.ledger.summary.endpoints = Ranking.truncate o.capacity (Ranking.stableSort history) := by
  rw [← Ranking.entries_enqueueAll]
  exact congrArg Ranking.entries (ranking_of_reaches run.reached).1

/-- The entries are successful handshakes, and their round trips the smallest ones. -/
theorem rtts_of_completes (port : o.port ≠ 0) (steadfast : ∀ t, f none t ≠ .error .cancelled)
    (run : Completes o f source journal candidates history s) :
    s.ledger.summary.endpoints.map Measurement.rtt = f.fastest o candidates := by
  have sorted : ((Ranking.stableSort history).map Measurement.rtt).Pairwise (· ≤ ·) := by
    refine List.pairwise_map.mpr ((Ranking.stableSort_pairwise history).imp ?_)
    intro a b h
    exact Ranking.notSlower_iff.mp h
  have perm : ((Ranking.stableSort history).map Measurement.rtt).Perm
      ((f.successes o candidates).map Prod.snd) := by
    have entered := (history_of_completes port steadfast run).map Prod.snd
    rw [List.map_map] at entered
    exact ((Ranking.stableSort_perm history).map Measurement.rtt).trans entered
  have merged : (((f.successes o candidates).map Prod.snd).mergeSort
      fun a b => decide (a ≤ b)).Pairwise (· ≤ ·) := by
    refine (List.pairwise_mergeSort ?_ ?_ _).imp of_decide_eq_true
    · intro a b c hab hbc
      exact decide_eq_true (Duration.le_trans (of_decide_eq_true hab) (of_decide_eq_true hbc))
    · intro a b
      simpa using Duration.le_total a b
  have same := (perm.trans (List.mergeSort_perm _ _).symm).eq_of_pairwise
    (fun a b _ _ hab hba => Duration.le_antisymm hab hba) sorted merged
  rw [entries_of_completes run, Answers.fastest, ← same, Ranking.map_truncate]

lemma mem_successes_of_completes (port : o.port ≠ 0)
    (steadfast : ∀ t, f none t ≠ .error .cancelled)
    (run : Completes o f source journal candidates history s) {m : Measurement}
    (hm : m ∈ s.ledger.summary.endpoints) : m.pair ∈ f.successes o candidates := by
  rw [entries_of_completes run] at hm
  have entered : m ∈ history :=
    (Ranking.stableSort_perm history).subset ((Ranking.truncate_sublist _ _).subset hm)
  exact (history_of_completes port steadfast run).subset (List.mem_map_of_mem entered)

/-- The entries of two rankings are made with the same endpoints, if their round trips are the same
and tell the endpoints apart. -/
theorem endpoints_eq_of_rtts {l₁ l₂ : List Measurement}
    (rtts : l₁.map Measurement.rtt = l₂.map Measurement.rtt)
    (apart : ∀ m₁ ∈ l₁, ∀ m₂ ∈ l₂, m₁.rtt = m₂.rtt → m₁.endpoint = m₂.endpoint) :
    l₁.map Measurement.endpoint = l₂.map Measurement.endpoint := by
  induction l₁ generalizing l₂ with
  | nil => simpa using rtts
  | cons m₁ l₁ ih =>
    cases l₂ with
    | nil => simp at rtts
    | cons m₂ l₂ =>
      obtain ⟨first, rest⟩ := List.cons.inj rtts
      have tail := ih rest fun a ha b hb =>
        apart a (List.mem_cons_of_mem _ ha) b (List.mem_cons_of_mem _ hb)
      rw [List.map_cons, List.map_cons, tail, apart m₁ List.mem_cons_self m₂ List.mem_cons_self first]

lemma eq_of_count_map_eq_one {α β : Type} [DecidableEq β] {g : α → β} {l : List α} {x y : α}
    (once : (l.map g).count (g x) = 1) (hx : x ∈ l) (hy : y ∈ l) (same : g y = g x) : x = y := by
  rw [List.count_eq_countP, List.countP_map, List.countP_eq_length_filter,
    List.length_eq_one_iff] at once
  obtain ⟨z, only⟩ := once
  have eq_z {w : α} (hw : w ∈ l) (hg : g w = g x) : w = z := by
    rw [← List.mem_singleton, ← only]
    exact List.mem_filter.mpr ⟨hw, by simpa using hg⟩
  exact (eq_z hx rfl).trans (eq_z hy same).symm

/-- The outcome of a scan that is not cancelled does not depend on the order in which its tasks take
turns, nor on the number of its workers. The counters agree, and the round trips of the results are
the smallest of the successful handshakes. If only one handshake took as long as each of them, the
endpoints are the same too; among handshakes that took equally long the order may decide which of
them stand in the ranking, and where. -/
theorem summary_of_any_schedule {workers₁ workers₂ : ℕ} {source₁ source₂ : Source}
    {journal₁ journal₂ : List Event} {history₁ history₂ : List Measurement} {s₁ s₂ : Pipeline}
    (port : o.port ≠ 0) (steadfast : ∀ t, f none t ≠ .error .cancelled)
    (run₁ : Completes { o with workers := workers₁ } f source₁ journal₁ candidates history₁ s₁)
    (run₂ : Completes { o with workers := workers₂ } f source₂ journal₂ candidates history₂ s₂) :
    let a := s₁.ledger.summary
    let b := s₂.ledger.summary
    let successes := f.successes o candidates
    a.candidates = b.candidates ∧ a.icmpPassed = b.icmpPassed ∧ a.tcpPassed = b.tcpPassed ∧
    a.handshakesOk = b.handshakesOk ∧ a.handshakesFailed = b.handshakesFailed ∧
    a.found = b.found ∧
    a.endpoints.map Measurement.rtt = b.endpoints.map Measurement.rtt ∧
    a.endpoints.map Measurement.rtt = f.fastest o candidates ∧
    ((∀ rtt ∈ f.fastest o candidates, (successes.map Prod.snd).count rtt = 1) →
      a.endpoints.map Measurement.endpoint = b.endpoints.map Measurement.endpoint) ∧
    ∀ (i : ℕ) (m₁ m₂ : Measurement), a.endpoints[i]? = some m₁ → b.endpoints[i]? = some m₂ →
      (∀ x ∈ successes, x.2 = m₁.rtt → x.1 = m₁.endpoint) → m₁.endpoint = m₂.endpoint := by
  intro a b successes
  let o₁ : Options := { o with workers := workers₁ }
  let o₂ : Options := { o with workers := workers₂ }
  have books : (tally f o).book s₁.ledger history₁ = (tally f o).book s₂.ledger history₂ :=
    (tally_of_completes (o := o₁) port steadfast run₁).trans
      (tally_of_completes (o := o₂) port steadfast run₂).symm
  simp only [tally, Prod.mk.injEq] at books
  have rtts₁ : a.endpoints.map Measurement.rtt = f.fastest o candidates :=
    rtts_of_completes (o := o₁) port steadfast run₁
  have rtts₂ : b.endpoints.map Measurement.rtt = f.fastest o candidates :=
    rtts_of_completes (o := o₂) port steadfast run₂
  have rtts := rtts₁.trans rtts₂.symm
  have found : a.endpoints.length = b.endpoints.length := by
    simpa using congrArg List.length rtts
  have mem₁ {m : Measurement} (hm : m ∈ a.endpoints) : m.pair ∈ successes :=
    mem_successes_of_completes (o := o₁) port steadfast run₁ hm
  have mem₂ {m : Measurement} (hm : m ∈ b.endpoints) : m.pair ∈ successes :=
    mem_successes_of_completes (o := o₂) port steadfast run₂ hm
  refine ⟨(ranking_of_reaches run₁.reached).2.trans (ranking_of_reaches run₂.reached).2.symm,
    books.1, books.2.1, books.2.2.1, books.2.2.2.1, found, rtts, rtts₁, fun once => ?_, ?_⟩
  · refine endpoints_eq_of_rtts rtts fun m₁ h₁ m₂ h₂ same => ?_
    have kept : m₁.rtt ∈ f.fastest o candidates := by
      rw [← rtts₁]
      exact List.mem_map_of_mem h₁
    exact congrArg Prod.fst
      (eq_of_count_map_eq_one (g := Prod.snd) (once m₁.rtt kept) (mem₁ h₁) (mem₂ h₂) same.symm)
  · intro i m₁ m₂ h₁ h₂ alone
    have same : m₂.rtt = m₁.rtt := by
      have at_i := congrArg (·[i]?) rtts
      simpa [h₁, h₂] using at_i.symm
    exact (alone m₂.pair (mem₂ (List.mem_of_getElem? h₂)) same).symm

/-- An order of tasks in which the first worker rests while the others go on. -/
def overtaking (tasks : List PipelineTask) : List PipelineTask :=
  (List.replicate 7 tasks ++ List.replicate 6 (tasks.erase (.dial 0)) ++
    List.replicate 6 tasks).flatten

/-- Two candidates, entered in one order by single workers and in the other by pairs of workers. -/
theorem summary_of_any_schedule_two_candidates :
    let near := Endpoint.v4 ⟨0x0A000001⟩ 0
    let far := Endpoint.v4 ⟨0x0A000002⟩ 2408
    let o : Options := { tcpFilter := false, capacity := 1, port := 500 }
    let f : Answers := fun _ t => .ok (t, if t = far then .ofMillis 20 else .ofMillis 10)
    ∃ history₁ s₁ history₂ s₂,
      Completes { o with workers := 1 } f default [] [near, far] history₁ s₁ ∧
      Completes { o with workers := 2 } f default [] [near, far] history₂ s₂ ∧
      history₁ ≠ history₂ ∧ s₁.ledger.summary.endpoints.map Measurement.endpoint =
        s₂.ledger.summary.endpoints.map Measurement.endpoint := by
  intro near far o f
  let o₁ : Options := { o with workers := 1 }
  let o₂ : Options := { o with workers := 2 }
  let start₁ := opened o₁ default false [] [near, far]
  let start₂ := opened o₂ default false [] [near, far]
  let run₁ := serveAll o₁ f [] start₁ (List.replicate 18 start₁.tasks).flatten
  let run₂ := serveAll o₂ f [] start₂ (overtaking start₂.tasks)
  have ends₁ : run₁.2.isDone ∧ run₁.2.ledger.cancelled = false := by decide +kernel
  have ends₂ : run₂.2.isDone ∧ run₂.2.ledger.cancelled = false := by decide +kernel
  have complete₁ : Completes o₁ f default [] [near, far] run₁.1 run₁.2 :=
    ⟨reaches_of_serveAll _ .start, ends₁.1, ends₁.2⟩
  have complete₂ : Completes o₂ f default [] [near, far] run₂.1 run₂.2 :=
    ⟨reaches_of_serveAll _ .start, ends₂.1, ends₂.2⟩
  have order : run₁.1 ≠ run₂.1 := by decide +kernel
  have agree := summary_of_any_schedule (o := o) (by decide) (by simp [f]) complete₁ complete₂
  have distinct : ((f.successes o [near, far]).map Prod.snd).Nodup := by decide +kernel
  have once := Answers.count_of_mem_fastest distinct
  exact ⟨_, _, _, _, complete₁, complete₂, order, agree.2.2.2.2.2.2.2.2.1 once⟩

/-- Two handshakes that take equally long, and room for one of them. The round trips of the results
do not repeat, and still the order of the tasks decides which endpoint is kept. -/
theorem endpoints_differ_on_tie :
    let near := Endpoint.v4 ⟨0x0A000001⟩ 0
    let far := Endpoint.v4 ⟨0x0A000002⟩ 2408
    let o : Options := { tcpFilter := false, capacity := 1, port := 500 }
    let f : Answers := fun _ t => .ok (t, .ofMillis 10)
    o.port ≠ 0 ∧ o.stopAfter = 0 ∧ (∀ t, f none t ≠ .error .cancelled) ∧
      ∃ history₁ s₁ history₂ s₂,
        Completes { o with workers := 1 } f default [] [near, far] history₁ s₁ ∧
        Completes { o with workers := 2 } f default [] [near, far] history₂ s₂ ∧
        s₁.ledger.summary.endpoints.map Measurement.rtt = [.ofMillis 10] ∧
        s₂.ledger.summary.endpoints.map Measurement.rtt = [.ofMillis 10] ∧
        [Duration.ofMillis 10].Nodup ∧
        s₁.ledger.summary.endpoints.map Measurement.endpoint ≠
          s₂.ledger.summary.endpoints.map Measurement.endpoint := by
  intro near far o f
  let o₁ : Options := { o with workers := 1 }
  let o₂ : Options := { o with workers := 2 }
  let start₁ := opened o₁ default false [] [near, far]
  let start₂ := opened o₂ default false [] [near, far]
  let run₁ := serveAll o₁ f [] start₁ (List.replicate 18 start₁.tasks).flatten
  let run₂ := serveAll o₂ f [] start₂ (overtaking start₂.tasks)
  have ends₁ : run₁.2.isDone ∧ run₁.2.ledger.cancelled = false := by decide +kernel
  have ends₂ : run₂.2.isDone ∧ run₂.2.ledger.cancelled = false := by decide +kernel
  have rtts₁ : run₁.2.ledger.summary.endpoints.map Measurement.rtt = [.ofMillis 10] := by
    decide +kernel
  have rtts₂ : run₂.2.ledger.summary.endpoints.map Measurement.rtt = [.ofMillis 10] := by
    decide +kernel
  have kept : run₁.2.ledger.summary.endpoints.map Measurement.endpoint ≠
      run₂.2.ledger.summary.endpoints.map Measurement.endpoint := by
    decide +kernel
  exact ⟨by decide, rfl, by simp [f], run₁.1, run₁.2, run₂.1, run₂.2,
    ⟨reaches_of_serveAll _ .start, ends₁.1, ends₁.2⟩,
    ⟨reaches_of_serveAll _ .start, ends₂.1, ends₂.2⟩, rtts₁, rtts₂, List.nodup_singleton _, kept⟩

end Pipeline

end Scan

end EdgeScan
