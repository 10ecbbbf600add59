import EdgeScan.Proofs.Scan.PortScan
import EdgeScan.Proofs.Target.Hosts
import Mathlib.Data.Multiset.OrderedMonoid

/-!
What a dedicated scan tests. An endpoint stands for itself from the list of targets to its task and
from there to the handshake probe, so none is asked twice, and nothing else is asked at all; a scan
that ends without being cancelled has asked every one.
-/
namespace EdgeScan.Scan

/-- Whether a probe measured something. -/
def Outcome.isMeasured : Outcome → Bool
  | measured _ => true
  | _ => false

lemma Answers.isMeasured_of_replies {f : Answers} {t : Endpoint} {outcome : Outcome}
    (answer : f.replies false none t outcome) : outcome.isMeasured = (f none t).isOk := by
  cases outcome with
  | measured m =>
    rw [show f none t = _ from answer]
    rfl
  | failed e =>
    rw [show f none t = _ from answer.resolve_right (by simp)]
    rfl
  | panicked => exact answer.elim

/-- The endpoints that were asked for a handshake. -/
def Ledger.asked (l : Ledger) : Multiset Endpoint := l.dials.map Dial.target

namespace PairTask

/-- The endpoint that a task has yet to ask. -/
def unasked : PairTask → Multiset Endpoint
  | ready t => {t}
  | _ => 0

/-- Counts a result that is not entered yet. -/
def measured : PairTask → ℕ
  | busy (.ranking _) => 1
  | _ => 0

/-- Counts a success that a task waits for, given which endpoints answer. -/
def expected (succeeds : Endpoint → Bool) : PairTask → ℕ
  | busy (.probing t) => (succeeds t).toNat
  | _ => 0

namespace Move

variable {o : Options} {replies : Replies} {l l' : Ledger} {task task' : PairTask}
  {entered : List Measurement}

theorem filters (move : task.Move o replies l entered l' task') :
    l'.icmpCalls = l.icmpCalls ∧ l'.tcpCalls = l.tcpCalls ∧ l'.icmpPassed = l.icmpPassed ∧
      l'.tcpPassed = l.tcpPassed := by
  cases move with
  | call | succeed | panic | enough | proceed | stop => exact ⟨rfl, rfl, rfl, rfl⟩
  | @fail t e =>
    obtain ⟨failed, journal, same, -⟩ := l.exists_failHandshake_eq e
    rw [same]
    exact ⟨rfl, rfl, rfl, rfl⟩
  | rank m =>
    obtain ⟨journal, same⟩ := l.exists_enqueue_eq m
    rw [same]
    exact ⟨rfl, rfl, rfl, rfl⟩

theorem asked (move : task.Move o replies l entered l' task') :
    l'.asked + task'.unasked = l.asked + task.unasked := by
  cases move with
  | call t =>
    show t ::ₘ l.asked + 0 = l.asked + {t}
    rw [add_zero, add_comm, Multiset.singleton_add]
  | succeed | panic | enough | proceed | stop => rfl
  | @fail t e =>
    obtain ⟨failed, journal, same, -⟩ := l.exists_failHandshake_eq e
    rw [same]
    rfl
  | rank m =>
    obtain ⟨journal, same⟩ := l.exists_enqueue_eq m
    rw [same]
    rfl

theorem handshakesOk (move : task.Move o replies l entered l' task') :
    l'.handshakesOk + task.measured = l.handshakesOk + entered.length + task'.measured := by
  cases move with
  | call | succeed | panic | enough | proceed | stop => rfl
  | @fail t e =>
    obtain ⟨failed, journal, same, -⟩ := l.exists_failHandshake_eq e
    rw [same]
    rfl
  | rank m =>
    obtain ⟨journal, same⟩ := l.exists_enqueue_eq m
    rw [same]
    rfl

theorem successes {succeeds : Endpoint → Bool}
    (decided : ∀ t outcome, replies false none t outcome → outcome.isMeasured = succeeds t)
    (running : l.cancelled = false) (move : task.Move o replies l entered l' task') :
    l'.handshakesOk + task'.expected succeeds + l.asked.countP (succeeds ·) =
      l.handshakesOk + task.expected succeeds + l'.asked.countP (succeeds ·) := by
  cases move with
  | call t =>
    have asked : (l.dial t t).asked = t ::ₘ l.asked := rfl
    rw [asked, Multiset.countP_cons]
    simp only [expected, Ledger.dial]
    cases succeeds t <;> simp
    omega
  | @succeed t m answer =>
    have answers : true = succeeds t := decided t (.measured m) (running ▸ answer)
    simp [expected, ← answers, Ledger.succeed, Ledger.note, Ledger.asked]
  | @fail t e answer =>
    have silent : false = succeeds t := decided t (.failed e) (running ▸ answer)
    obtain ⟨failed, journal, same, -⟩ := l.exists_failHandshake_eq e
    simp [expected, ← silent, same, Ledger.asked]
  | @panic t answer =>
    have silent : false = succeeds t := decided t .panicked (running ▸ answer)
    simp [expected, ← silent, Ledger.note, Ledger.asked]
  | rank m =>
    obtain ⟨journal, same⟩ := l.exists_enqueue_eq m
    rw [same]
    rfl
  | enough | proceed | stop => rfl

end Move

end PairTask

namespace PortScan

/-- The endpoints that are yet to be asked. -/
def unasked (s : PortScan) : Multiset Endpoint :=
  (s.tasks.map PairTask.unasked).sum + s.unstarted

variable {o : Options} {replies : Replies} {s s' : PortScan} {source : Source} {cancelled : Bool}
  {journal : List Event} {targets : List Endpoint} {history entered : List Measurement}

lemma filters_of_move (move : s.Move o replies entered s') :
    s'.ledger.icmpCalls = s.ledger.icmpCalls ∧ s'.ledger.tcpCalls = s.ledger.tcpCalls ∧
      s'.ledger.icmpPassed = s.ledger.icmpPassed ∧ s'.ledger.tcpPassed = s.ledger.tcpPassed := by
  cases move with
  | cancel | report | begin | giveUp => exact ⟨rfl, rfl, rfl, rfl⟩
  | pair here move => exact move.filters

theorem asked_of_move (move : s.Move o replies entered s') :
    Keeps True s.ledger.cancelled (s.ledger.asked + s.unasked) (s'.ledger.asked + s'.unasked) := by
  cases move with
  | cancel | report => exact .of_eq rfl
  | @begin t rest here =>
    refine .of_eq ?_
    simp only [unasked, here, List.map_append, List.sum_append, List.map_cons, List.map_nil,
      List.sum_cons, List.sum_nil, add_zero, PairTask.unasked, ← Multiset.cons_coe,
      ← Multiset.singleton_add, add_assoc]
  | giveUp cancelled =>
    refine ⟨?_, fun _ running => absurd running (by simp [cancelled])⟩
    simp [unasked]
  | @pair i task task' entered l here move =>
    obtain ⟨rest, hold, hnew⟩ := Pool.exists_sum_set PairTask.unasked here
    have kept := move.asked
    refine .of_eq ?_
    simp only [unasked, become, hold, hnew, ← add_assoc, kept]

/-- Of the targets, those that were asked and those yet to be asked are all, unless the scan is
cancelled; then they are some. -/
theorem asked_of_reaches
    (reached : Reaches o replies (opened o source cancelled journal targets) history s) :
    Keeps True s.ledger.cancelled (targets : Multiset Endpoint) (s.ledger.asked + s.unasked) := by
  refine reached.invariant (P := fun _ s => Keeps True s.ledger.cancelled
    (targets : Multiset Endpoint) (s.ledger.asked + s.unasked)) ?_ ?_
  · refine .of_eq ?_
    simp [opened, start, unasked, Ledger.start, Ledger.asked]
  · intro history s entered s' before move
    have step := asked_of_move move
    refine ⟨step.1.trans before.1, fun _ running => ?_⟩
    have was := (acceptance_of_move move).running running
    exact (step.2 trivial was).trans (before.2 trivial was)

/-- Nothing but the targets is asked, and none of them more often than it is given. -/
theorem asked_le
    (reached : Reaches o replies (opened o source cancelled journal targets) history s) :
    s.ledger.asked ≤ targets :=
  (Multiset.le_add_right _ _).trans (asked_of_reaches reached).1

lemma filters_of_reaches
    (reached : Reaches o replies (opened o source cancelled journal targets) history s) :
    s.ledger.icmpCalls = [] ∧ s.ledger.tcpCalls = [] ∧ s.ledger.icmpPassed = 0 ∧
      s.ledger.tcpPassed = 0 := by
  refine reached.invariant (P := fun _ s => s.ledger.icmpCalls = [] ∧ s.ledger.tcpCalls = [] ∧
    s.ledger.icmpPassed = 0 ∧ s.ledger.tcpPassed = 0) ⟨rfl, rfl, rfl, rfl⟩ ?_
  intro history s entered s' before move
  obtain ⟨icmpCalls, tcpCalls, icmpPassed, tcpPassed⟩ := filters_of_move move
  rwa [icmpCalls, tcpCalls, icmpPassed, tcpPassed]

/-- The successful handshakes are the results that were entered and those still in hand. -/
theorem handshakesOk_of_reaches
    (reached : Reaches o replies (opened o source cancelled journal targets) history s) :
    s.ledger.handshakesOk = history.length + (s.tasks.map PairTask.measured).sum := by
  refine reached.invariant (P := fun history s =>
    s.ledger.handshakesOk = history.length + (s.tasks.map PairTask.measured).sum) rfl ?_
  intro history s entered s' before move
  cases move with
  | cancel | report | giveUp =>
    rw [List.append_nil]
    exact before
  | begin => simpa [PairTask.measured] using before
  | @pair i task task' entered l here move =>
    obtain ⟨rest, hold, hnew⟩ := Pool.exists_sum_set PairTask.measured here
    have counted := move.handshakesOk
    simp only [become, hold, hnew, List.length_append] at before ⊢
    omega

/-- As long as a scan goes on, the endpoints that answer are those counted and those still waited
for. -/
theorem successes_of_reaches {succeeds : Endpoint → Bool}
    (decided : ∀ t outcome, replies false none t outcome → outcome.isMeasured = succeeds t)
    (reached : Reaches o replies (opened o source cancelled journal targets) history s)
    (running : s.ledger.cancelled = false) :
    s.ledger.handshakesOk + (s.tasks.map (PairTask.expected succeeds)).sum =
      s.ledger.asked.countP (succeeds ·) := by
  refine reached.invariant (P := fun _ s => s.ledger.cancelled = false →
    s.ledger.handshakesOk + (s.tasks.map (PairTask.expected succeeds)).sum =
      s.ledger.asked.countP (succeeds ·)) (fun _ => rfl) ?_ running
  intro history s entered s' before move running
  have was := (acceptance_of_move move).running running
  have before := before was
  cases move with
  | cancel => exact absurd running (by simp [Ledger.cancel])
  | report | giveUp => exact before
  | begin => simpa [PairTask.expected] using before
  | @pair i task task' entered l here move =>
    obtain ⟨rest, hold, hnew⟩ := Pool.exists_sum_set (PairTask.expected succeeds) here
    have counted := move.successes decided was
    simp only [become, hold, hnew] at before ⊢
    omega

theorem asked_of_cancelled
    (reached : Reaches o replies (opened o source true journal targets) history s) :
    s.ledger.asked = 0 := by
  have idle : s.ledger.cancelled = true ∧ s.tasks = [] ∧ s.ledger.asked = 0 := by
    refine reached.invariant (P := fun _ s =>
      s.ledger.cancelled = true ∧ s.tasks = [] ∧ s.ledger.asked = 0) ⟨rfl, rfl, rfl⟩ ?_
    rintro history s entered s' ⟨cancelled, idle, silent⟩ move
    cases move with
    | cancel running | begin _ running => exact absurd running (by simp [cancelled])
    | report | giveUp => exact ⟨cancelled, idle, silent⟩
    | pair here => exact absurd here (by simp [idle])
  exact idle.2.2

lemma sum_of_isDone {M : Type} [AddCommMonoid M] {f : PairTask → M} (ended : f .done = 0)
    (done : s.isDone = true) : (s.tasks.map f).sum = 0 := by
  have all := List.all_eq_true.mp (Bool.and_eq_true_iff.mp done).2
  refine List.sum_eq_zero fun x hx => ?_
  obtain ⟨task, htask, rfl⟩ := List.mem_map.mp hx
  rw [eq_of_beq (all task htask), ended]

lemma unasked_of_isDone (done : s.isDone = true) : s.unasked = 0 := by
  have none : s.unstarted = [] := List.isEmpty_iff.mp (Bool.and_eq_true_iff.mp done).1
  rw [unasked, sum_of_isDone rfl done, none]
  rfl

lemma asked_of_isDone
    (reached : Reaches o replies (opened o source cancelled journal targets) history s)
    (done : s.isDone = true) (running : s.ledger.cancelled = false) :
    s.ledger.asked = targets := by
  have all := (asked_of_reaches reached).2 trivial running
  rwa [unasked_of_isDone done, add_zero] at all

lemma found_of_isDone
    (reached : Reaches o replies (opened o source cancelled journal targets) history s)
    (done : s.isDone = true) : s.ledger.summary.found =
      if o.capacity = 0 then s.ledger.handshakesOk else min s.ledger.handshakesOk o.capacity := by
  rw [handshakesOk_of_reaches reached, sum_of_isDone rfl done, add_zero]
  exact (accepted_of_reaches reached).size

/-- A dedicated scan asks every pair of an address and a port that its options name at most once,
and nothing else; no filter is ever used. When all tasks of a scan that was not cancelled have ended
every pair was asked, and its results are the successes, or as many of them as the ranking keeps;
if each endpoint decides by itself whether it answers, the successes are the pairs that do. A scan
that is cancelled before it starts asks nothing. -/
theorem pairs_asked_once (reached : Reaches o replies
    (opened o source cancelled journal o.portTargets.endpoints) history s) :
    let asked := s.ledger.asked
    let summary := s.ledger.summary
    asked.Nodup ∧
    (∀ e ∈ asked, ∃ a ports, (a, ports) ∈ o.portTargets ∧ ∃ p ∈ ports, e = .new a p) ∧
    (s.ledger.icmpCalls = [] ∧ s.ledger.tcpCalls = [] ∧ summary.icmpPassed = 0 ∧
      summary.tcpPassed = 0) ∧
    summary.candidates = o.portTargets.pairs.toFinset.card ∧
    (s.isDone = true → s.ledger.cancelled = false →
      (∀ a ports, (a, ports) ∈ o.portTargets → ∀ p ∈ ports, asked.count (.new a p) = 1) ∧
      summary.found = (if o.capacity = 0 then summary.handshakesOk
        else min summary.handshakesOk o.capacity) ∧
      ∀ succeeds : Endpoint → Bool,
        (∀ t outcome, replies false none t outcome → outcome.isMeasured = succeeds t) →
        summary.handshakesOk = (o.portTargets.pairs.toFinset.filter fun pair =>
          succeeds (.new pair.1 pair.2)).card) ∧
    (cancelled = true → asked = 0) := by
  intro asked summary
  have le : asked ≤ (o.portTargets.endpoints : Multiset Endpoint) := asked_le reached
  have apart : (o.portTargets.endpoints : Multiset Endpoint).Nodup :=
    Multiset.coe_nodup.mpr o.portTargets.nodup_endpoints
  have candidates : summary.candidates = o.portTargets.endpoints.length :=
    (accepted_of_reaches reached).candidates
  refine ⟨Multiset.nodup_of_le le apart, fun e he => ?named, filters_of_reaches reached,
    candidates.trans o.portTargets.length_endpoints, fun done running => ⟨?all,
      found_of_isDone reached done, fun succeeds decided => ?successes⟩, ?cancelled⟩
  case named =>
    exact PortTargets.mem_endpoints.mp (Multiset.mem_coe.mp (Multiset.mem_of_le le he))
  case all =>
    intro a ports named p hp
    have mem := PortTargets.mem_endpoints.mpr ⟨a, ports, named, p, hp, rfl⟩
    exact (congrArg _ (asked_of_isDone reached done running)).trans
      (Multiset.count_eq_one_of_mem apart (Multiset.mem_coe.mpr mem))
  case successes =>
    have counted := successes_of_reaches decided reached running
    rw [sum_of_isDone rfl done, add_zero, asked_of_isDone reached done running] at counted
    rw [← o.portTargets.countP_endpoints succeeds]
    exact counted.trans (by simp)
  case cancelled =>
    rintro rfl
    exact asked_of_cancelled reached

/-- Two addresses, one of which gives a port twice; one of the three pairs answers. -/
theorem pairs_asked_once_repeated_port :
    let first := Address.v4 ⟨0x0A000001⟩
    let second := Address.v6 ⟨1⟩
    let o : Options := { portTargets := [(first, [500, 0, 500]), (second, [500])], capacity := 0 }
    let f : Answers := fun _ t =>
      if t = .new first 500 then .ok (t, .ofMillis 1) else .error .timeout
    let start := opened o default false [] o.portTargets.endpoints
    ∃ history s, Reaches o f.replies start history s ∧ s.isDone = true ∧
      s.ledger.cancelled = false ∧ s.ledger.asked.Nodup ∧
      s.ledger.asked.count (.new first 0) = 1 ∧
      s.ledger.summary.found = (o.portTargets.pairs.toFinset.filter fun pair =>
        (f none (.new pair.1 pair.2)).isOk).card := by
  intro first second o f start
  have targets : o.portTargets.endpoints = [.new first 500, .new first 0, .new second 500] := by
    rw [PortTargets.endpoints, distinct_eq_eraseDups]
    rfl
  let listed := opened o default false [] [.new first 500, .new first 0, .new second 500]
  let run := serveAll o f [] listed (List.replicate 5 [.starter, .pair 0, .pair 1, .pair 2]).flatten
  have ends : run.2.isDone ∧ run.2.ledger.cancelled = false := by
    decide +kernel
  have reached : Reaches o f.replies start run.1 run.2 := by
    change Reaches o f.replies (opened o default false [] o.portTargets.endpoints) run.1 run.2
    rw [targets]
    exact reaches_of_serveAll _ .start
  obtain ⟨nodup, -, -, -, final, -⟩ := pairs_asked_once reached
  obtain ⟨once, found, successes⟩ := final ends.1 ends.2
  have answering := successes (fun t => (f none t).isOk) fun _ _ => Answers.isMeasured_of_replies
  exact ⟨run.1, run.2, reached, ends.1, ends.2, nodup,
    once first [500, 0, 500] List.mem_cons_self 0 (by decide), found.trans answering⟩

end PortScan

end EdgeScan.Scan
