import EdgeScan.Proofs.Scan.Runs
import Mathlib.Algebra.BigOperators.Group.List.Basic
import Mathlib.Algebra.Order.BigOperators.Group.List
import Mathlib.Tactic.Abel

/-!
Accounts of a pipeline. A valuation gives every candidate a worth at each place that it passes, and
the ledger a worth together with the results entered. If single moves keep the worth of what they
touch, then no run gains any, and a run that is not cancelled loses none.
-/
namespace EdgeScan.Scan

structure Valuation (M : Type) where
  before : Stage → Endpoint → M
  probing : Stage → Endpoint → M
  queued : Endpoint → M
  dialling : Endpoint → M
  found : Measurement → M
  book : Ledger → List Measurement → M

/-- Of an old and a new worth: nothing is gained, and if the account is exact nothing is lost as
long as the scan goes on. -/
def Keeps {M : Type} [PartialOrder M] (exact : Prop) (cancelled : Bool) (old new : M) : Prop :=
  new ≤ old ∧ (exact → cancelled = false → new = old)

def Outcome.clears (limit : Duration) : Outcome → Bool
  | .measured m => m.rtt ≤ limit
  | _ => false

/-- The worth of what is in a channel and in the hands of its workers. -/
def Pool.worth {M Work : Type} [AddCommMonoid M] (channel : Endpoint → M)
    (worker : Worker Work → M) (p : Pool Work) : M :=
  (p.inbox.map channel).sum + (p.workers.map worker).sum

namespace Valuation

variable {M : Type} [AddCommMonoid M]

/-- The worth of a candidate that a filter sends on. -/
def after (v : Valuation M) : Stage → Endpoint → M
  | .icmp => v.before .tcp
  | .tcp => v.queued

def filterWorker (v : Valuation M) (stage : Stage) : Worker FilterWork → M
  | .received c => v.before stage c
  | .busy (.probing c) => v.probing stage c
  | .busy (.sending c) => v.after stage c
  | _ => 0

def dialWorker (v : Valuation M) : Worker DialWork → M
  | .received c => v.queued c
  | .busy (.probing t) => v.dialling t
  | .busy (.ranking m) => v.found m
  | _ => 0

def filterWorth (v : Valuation M) (stage : Stage) (p : Pool FilterWork) : M :=
  p.worth (v.before stage) (v.filterWorker stage)

def dialWorth (v : Valuation M) (p : Pool DialWork) : M := p.worth v.queued v.dialWorker

/-- The worth of a pipeline after some results were entered. -/
def total (v : Valuation M) (history : List Measurement) (s : Pipeline) : M :=
  v.book s.ledger history + ((s.feed.getD []).map (v.before .icmp)).sum +
    v.filterWorth .icmp s.icmp + v.filterWorth .tcp s.tcp + v.dialWorth s.dial

/-- Nothing on its way is worth less than nothing. -/
structure IsNonneg [PartialOrder M] (v : Valuation M) : Prop where
  before (stage : Stage) (c : Endpoint) : 0 ≤ v.before stage c
  probing (stage : Stage) (c : Endpoint) : 0 ≤ v.probing stage c
  queued (c : Endpoint) : 0 ≤ v.queued c
  dialling (t : Endpoint) : 0 ≤ v.dialling t
  found (m : Measurement) : 0 ≤ v.found m

/-- Nothing of worth is in the hands of a task that finds the channel behind it abandoned. -/
structure Attended (v : Valuation M) (s : Pipeline) : Prop where
  feed (c : Endpoint) : s.feed.isSome = true → s.icmp.isDone = true → v.before .icmp c = 0
  icmp (c : Endpoint) : s.icmp.isDone = false → s.tcp.isDone = true → v.before .tcp c = 0
  tcp (c : Endpoint) : s.tcp.isDone = false → s.dial.isDone = true → v.queued c = 0

/-- The laws by which single moves keep the worth of what they touch. -/
structure Lawful [PartialOrder M] (v : Valuation M) (o : Options) (replies : Replies)
    (exact : Prop) : Prop where
  before_nonneg (stage : Stage) (c : Endpoint) : 0 ≤ v.before stage c
  queued_nonneg (c : Endpoint) : 0 ≤ v.queued c
  call {stage : Stage} (c : Endpoint) (enabled : stage.enabled o = true) :
    v.probing stage c = v.before stage c
  skip {stage : Stage} (c : Endpoint) (disabled : stage.enabled o = false) :
    v.after stage c = v.before stage c
  pass {stage : Stage} {c : Endpoint} {cancelled : Bool} {outcome : Outcome} (l : Ledger)
    (history : List Measurement) (answer : replies cancelled (some stage) (stage.target o c) outcome)
    (clears : outcome.clears (stage.limit o) = true) :
    v.book (l.pass stage) history + v.after stage c = v.book l history + v.probing stage c
  drop {stage : Stage} {c : Endpoint} {cancelled : Bool} {outcome : Outcome}
    (answer : replies cancelled (some stage) (stage.target o c) outcome)
    (blocked : outcome.clears (stage.limit o) = false) :
    Keeps exact cancelled (v.probing stage c) 0
  dial {c : Endpoint} {port : UInt16} {source source' : Source} (l : Ledger)
    (history : List Measurement) (drawn : (handshakePort o c.port).run source = (port, source')) :
    v.book (l.dial c (.new c.address port)) history + v.dialling (.new c.address port) =
      v.book l history + v.queued c
  succeed {t : Endpoint} {m : Measurement} (l : Ledger) (history : List Measurement)
    (answer : replies l.cancelled none t (.measured m)) :
    v.book l.succeed history + v.found m = v.book l history + v.dialling t
  refuse {t : Endpoint} {e : ProbeError} (l : Ledger) (history : List Measurement)
    (answer : replies l.cancelled none t (.failed e)) :
    Keeps exact l.cancelled (v.book l history + v.dialling t) (v.book (l.failHandshake e) history)
  panic {t : Endpoint} {cancelled : Bool} (answer : replies cancelled none t .panicked) :
    Keeps exact cancelled (v.dialling t) 0
  rank (l : Ledger) (history : List Measurement) (m : Measurement) :
    v.book (l.enqueue m) (history ++ [m]) = v.book l history + v.found m
  book_note (l : Ledger) (history : List Measurement) (e : Event) :
    v.book (l.note e) history = v.book l history
  book_cancel (l : Ledger) (history : List Measurement) : v.book l.cancel history = v.book l history
  book_call (l : Ledger) (history : List Measurement) (stage : Stage) (t : Endpoint) :
    v.book (l.call stage t) history = v.book l history
  book_source (l : Ledger) (history : List Measurement) (source : Source) :
    v.book { l with source } history = v.book l history

end Valuation

namespace Keeps

variable {M : Type} [PartialOrder M] {exact : Prop} {cancelled : Bool} {a b c : M}

lemma of_eq (h : b = a) : Keeps exact cancelled a b := ⟨h.le, fun _ _ => h⟩

variable [AddCommMonoid M] [IsOrderedAddMonoid M]

theorem beside (h : Keeps exact cancelled a b) (rest : M) :
    Keeps exact cancelled (a + rest) (b + rest) :=
  ⟨add_le_add_left h.1 rest, fun he hc => by rw [h.2 he hc]⟩

end Keeps

namespace Pool

variable {M Work : Type} [AddCommMonoid M] {p p' : Pool Work} {i : ℕ} {w : Worker Work}

lemma exists_sum_set {α : Type} (f : α → M) {l : List α} {i : ℕ} {a : α} (h : l[i]? = some a) :
    ∃ rest, (l.map f).sum = f a + rest ∧ ∀ b, ((l.set i b).map f).sum = f b + rest := by
  induction l generalizing i with
  | nil => exact absurd h (by simp)
  | cons x l ih =>
    cases i with
    | zero =>
      have hx : x = a := by simpa using h
      subst hx
      exact ⟨(l.map f).sum, by simp, by simp⟩
    | succ i =>
      obtain ⟨rest, hold, hnew⟩ := ih (by simpa using h)
      refine ⟨f x + rest, ?_, fun b => ?_⟩
      · rw [List.map_cons, List.sum_cons, hold, add_left_comm]
      · rw [List.set_cons_succ, List.map_cons, List.sum_cons, hnew, add_left_comm]

variable (channel : Endpoint → M) (worker : Worker Work → M)

/-- A pool is worth what one of its workers holds and a rest that this worker does not touch. -/
theorem exists_worth_become (here : p.workers[i]? = some w) :
    ∃ rest, p.worth channel worker = worker w + rest ∧
      ∀ w', (p.become i w').worth channel worker = worker w' + rest := by
  obtain ⟨rest, hold, hnew⟩ := exists_sum_set worker here
  refine ⟨(p.inbox.map channel).sum + rest, ?_, fun w' => ?_⟩
  · rw [worth, hold, add_left_comm]
  · rw [worth, become, hnew, add_left_comm]

omit [AddCommMonoid M] in
lemma isDone_eq_false (here : p.workers[i]? = some w) (working : w.isDone = false) :
    p.isDone = false :=
  List.all_eq_false.mpr ⟨w, List.mem_of_getElem? here, by simp [working]⟩

omit [AddCommMonoid M] in
lemma isDone_of_room {width : ℕ} (h : p.room width = .gone) : p.isDone = true := by
  unfold room at h
  split_ifs at h with hd
  exact hd

lemma worth_push (p : Pool Work) (l : List Endpoint) :
    (p.push l).worth channel worker = (l.map channel).sum + p.worth channel worker := by
  simp only [worth, push, List.map_append, List.sum_append]
  abel

lemma worth_start (size : ℕ) (idle : worker .waiting = 0) :
    (start size : Pool Work).worth channel worker = 0 := by
  simp [worth, start, idle]

lemma worth_nonneg [PartialOrder M] [IsOrderedAddMonoid M] {channel : Endpoint → M}
    {worker : Worker Work → M} (channels : ∀ c, 0 ≤ channel c) (workers : ∀ w, 0 ≤ worker w)
    (p : Pool Work) : 0 ≤ p.worth channel worker := by
  refine add_nonneg (List.sum_nonneg fun x hx => ?_) (List.sum_nonneg fun x hx => ?_)
  · obtain ⟨c, -, rfl⟩ := List.mem_map.mp hx
    exact channels c
  · obtain ⟨w, -, rfl⟩ := List.mem_map.mp hx
    exact workers w

/-- What a worker does at its channel keeps the worth of the pool. -/
theorem worth_of_turn {cancelled more : Bool} (turn : p.Turn i cancelled more p')
    (waiting : worker .waiting = 0) (receiving : worker .receiving = 0) (done : worker .done = 0)
    (received : ∀ c, worker (.received c) = channel c) :
    p'.worth channel worker = p.worth channel worker := by
  cases turn with
  | enter here =>
    obtain ⟨rest, hold, hnew⟩ := exists_worth_become channel worker here
    rw [hold, hnew, waiting, receiving]
  | @take c inbox here running next =>
    obtain ⟨rest, hold, hnew⟩ := exists_sum_set worker here
    simp only [worth, become, next, List.map_cons, List.sum_cons, hold, hnew, receiving, received]
    abel
  | leave here idle =>
    obtain ⟨rest, hold, hnew⟩ := exists_worth_become channel worker here
    rcases idle with rfl | rfl
    · rw [hold, hnew, waiting, done]
    · rw [hold, hnew, receiving, done]

end Pool

namespace Valuation

variable {M : Type} [AddCommMonoid M] (v : Valuation M) {i : ℕ}

lemma exists_filterWorth_become (stage : Stage) {p : Pool FilterWork} {w : Worker FilterWork}
    (here : p.workers[i]? = some w) :
    ∃ rest, v.filterWorth stage p = v.filterWorker stage w + rest ∧
      ∀ w', v.filterWorth stage (p.become i w') = v.filterWorker stage w' + rest :=
  Pool.exists_worth_become _ _ here

lemma exists_dialWorth_become {p : Pool DialWork} {w : Worker DialWork}
    (here : p.workers[i]? = some w) :
    ∃ rest, v.dialWorth p = v.dialWorker w + rest ∧
      ∀ w', v.dialWorth (p.become i w') = v.dialWorker w' + rest :=
  Pool.exists_worth_become _ _ here

end Valuation

variable {M : Type} [AddCommMonoid M] [PartialOrder M] [IsOrderedAddMonoid M] {v : Valuation M}
  {o : Options} {replies : Replies} {exact : Prop} {i : ℕ} {more : Bool}

theorem FilterWork.Move.keeps {stage : Stage} {l : Ledger} {p : Pool FilterWork} {room : Room}
    {n : FilterStep} (lawful : v.Lawful o replies exact)
    (move : Move o replies stage l p i more room n)
    (attended : ∀ c, exact → l.cancelled = false → p.isDone = false → room = .gone →
      v.after stage c = 0)
    (history : List Measurement) :
    Keeps exact l.cancelled (v.book l history + v.filterWorth stage p)
      (v.book n.ledger history + v.filterWorth stage n.pool + (n.sent.map (v.after stage)).sum) := by
  cases move with
  | @turn p' turn =>
    have kept : v.filterWorth stage p' = v.filterWorth stage p :=
      Pool.worth_of_turn _ _ turn rfl rfl rfl fun _ => rfl
    exact .of_eq (by simp [kept])
  | call here enabled =>
    obtain ⟨rest, hold, hnew⟩ := v.exists_filterWorth_become stage here
    refine .of_eq ?_
    simp [hold, hnew, lawful.book_call, Valuation.filterWorker, lawful.call _ enabled]
  | skip here disabled =>
    obtain ⟨rest, hold, hnew⟩ := v.exists_filterWorth_become stage here
    refine .of_eq ?_
    simp [hold, hnew, Valuation.filterWorker, lawful.skip _ disabled]
  | send here =>
    obtain ⟨rest, hold, hnew⟩ := v.exists_filterWorth_become stage here
    refine .of_eq ?_
    simp only [hold, hnew, Valuation.filterWorker, List.map_cons, List.map_nil, List.sum_cons,
      List.sum_nil]
    abel
  | @quit c here cause =>
    obtain ⟨rest, hold, hnew⟩ := v.exists_filterWorth_become stage here
    have lost : Keeps exact l.cancelled (v.after stage c) 0 := by
      refine ⟨?_, fun he hc => ?_⟩
      · cases stage
        · exact lawful.before_nonneg .tcp c
        · exact lawful.queued_nonneg c
      · rcases cause with h | h
        · simp [h] at hc
        · exact (attended c he hc (Pool.isDone_eq_false here rfl) h).symm
    have kept := lost.beside (v.book l history + rest)
    simpa [hold, hnew, Valuation.filterWorker, add_left_comm] using kept
  | pass here answer within =>
    obtain ⟨rest, hold, hnew⟩ := v.exists_filterWorth_become stage here
    have paid := lawful.pass l history answer (by simpa [Outcome.clears] using within)
    refine .of_eq ?_
    simp [hold, hnew, lawful.book_note, Valuation.filterWorker, ← add_assoc, paid]
  | drop here answer above =>
    obtain ⟨rest, hold, hnew⟩ := v.exists_filterWorth_become stage here
    have lost := lawful.drop answer (by simpa [Outcome.clears] using above)
    have kept := lost.beside (v.book l history + rest)
    simpa [hold, hnew, lawful.book_note, Valuation.filterWorker, add_left_comm] using kept
  | @fail c e here answer =>
    obtain ⟨rest, hold, hnew⟩ := v.exists_filterWorth_become stage here
    have noted : v.book (l.noteFailure e) history = v.book l history := by
      unfold Ledger.noteFailure
      split
      · rfl
      · exact lawful.book_note _ _ _
    have kept := (lawful.drop answer rfl).beside (v.book l history + rest)
    simpa [hold, hnew, noted, Valuation.filterWorker, add_left_comm] using kept
  | panic here answer =>
    obtain ⟨rest, hold, hnew⟩ := v.exists_filterWorth_become stage here
    have kept := (lawful.drop answer rfl).beside (v.book l history + rest)
    simpa [hold, hnew, lawful.book_note, Valuation.filterWorker, add_left_comm] using kept

theorem DialWork.Move.keeps {l l' : Ledger} {p p' : Pool DialWork} {entered : List Measurement}
    (lawful : v.Lawful o replies exact) (move : Move o replies l p i more entered l' p')
    (history : List Measurement) :
    Keeps exact l.cancelled (v.book l history + v.dialWorth p)
      (v.book l' (history ++ entered) + v.dialWorth p') := by
  cases move with
  | turn turn =>
    have kept : v.dialWorth p' = v.dialWorth p :=
      Pool.worth_of_turn _ _ turn rfl rfl rfl fun _ => rfl
    exact .of_eq (by simp [kept])
  | @call c port source here drawn =>
    obtain ⟨rest, hold, hnew⟩ := v.exists_dialWorth_become here
    have paid := lawful.dial { l with source } history drawn
    rw [lawful.book_source l history source] at paid
    refine .of_eq ?_
    simp [hold, hnew, Valuation.dialWorker, ← add_assoc, paid]
  | succeed here answer =>
    obtain ⟨rest, hold, hnew⟩ := v.exists_dialWorth_become here
    have paid := lawful.succeed l history answer
    refine .of_eq ?_
    simp [hold, hnew, Valuation.dialWorker, ← add_assoc, paid]
  | fail here answer =>
    obtain ⟨rest, hold, hnew⟩ := v.exists_dialWorth_become here
    have kept := (lawful.refuse l history answer).beside rest
    simpa [hold, hnew, Valuation.dialWorker, add_assoc] using kept
  | panic here answer =>
    obtain ⟨rest, hold, hnew⟩ := v.exists_dialWorth_become here
    have kept := (lawful.panic answer).beside (v.book l history + rest)
    simpa [hold, hnew, lawful.book_note, Valuation.dialWorker, add_left_comm] using kept
  | @rank m here =>
    obtain ⟨rest, hold, hnew⟩ := v.exists_dialWorth_become here
    refine .of_eq ?_
    simp [hold, hnew, Valuation.dialWorker, lawful.rank, add_assoc]
  | enough here | proceed here =>
    obtain ⟨rest, hold, hnew⟩ := v.exists_dialWorth_become here
    exact .of_eq (by simp [hold, hnew, Valuation.dialWorker])
  | stop here =>
    obtain ⟨rest, hold, hnew⟩ := v.exists_dialWorth_become here
    refine .of_eq ?_
    simp [hold, hnew, Valuation.dialWorker, lawful.book_cancel, lawful.book_note]

namespace Valuation

/-- Every move keeps the total, provided that no task of a scan that goes on finds the channel
behind it abandoned. -/
theorem total_keeps {s s' : Pipeline} {entered : List Measurement}
    (lawful : v.Lawful o replies exact) (move : s.Move o replies entered s')
    (attended : exact → s.ledger.cancelled = false → v.Attended s) (history : List Measurement) :
    Keeps exact s.ledger.cancelled (v.total history s) (v.total (history ++ entered) s') := by
  cases move with
  | cancel => exact .of_eq (by simp [total, lawful.book_cancel])
  | report e => exact .of_eq (by simp [total, lawful.book_note])
  | act act =>
    cases act with
    | feedSends here =>
      refine .of_eq ?_
      simp only [total, filterWorth, Pool.worth_push, here, Option.getD_some, List.map_cons,
        List.map_nil, List.sum_cons, List.sum_nil, List.append_nil]
      abel
    | @feedEnds rest here cause =>
      have lost : Keeps exact s.ledger.cancelled (rest.map (v.before .icmp)).sum 0 := by
        rcases cause with rfl | cause
        · exact .of_eq rfl
        · refine ⟨List.sum_nonneg fun x hx => ?_, fun he hc => ?_⟩
          · obtain ⟨c, -, rfl⟩ := List.mem_map.mp hx
            exact lawful.before_nonneg .icmp c
          · rcases cause with h | h
            · simp [h] at hc
            · refine (List.sum_eq_zero fun x hx => ?_).symm
              obtain ⟨c, -, rfl⟩ := List.mem_map.mp hx
              exact (attended he hc).feed c (by simp [here]) (Pool.isDone_of_room h)
      have kept := lost.beside (v.book s.ledger history + v.filterWorth .icmp s.icmp +
        v.filterWorth .tcp s.tcp + v.dialWorth s.dial)
      convert kept using 1
      · simp only [total, here, Option.getD_some]
        abel
      · simp [total]
    | @icmp i n move =>
      have kept := (move.keeps lawful (fun c he hc hi hr => ?_) history).beside
        (((s.feed.getD []).map (v.before .icmp)).sum + v.filterWorth .tcp s.tcp + v.dialWorth s.dial)
      · convert kept using 1
        · simp only [total]
          abel
        · simp only [total, List.append_nil, filterWorth, Pool.worth_push, after]
          abel
      · exact (attended he hc).icmp c hi (Pool.isDone_of_room hr)
    | @tcp i n move =>
      have kept := (move.keeps lawful (fun c he hc ht hr => ?_) history).beside
        (((s.feed.getD []).map (v.before .icmp)).sum + v.filterWorth .icmp s.icmp + v.dialWorth s.dial)
      · convert kept using 1
        · simp only [total]
          abel
        · simp only [total, List.append_nil, dialWorth, Pool.worth_push, after]
          abel
      · exact (attended he hc).tcp c ht (Pool.isDone_of_room hr)
    | dial move =>
      have kept := (move.keeps lawful history).beside
        (((s.feed.getD []).map (v.before .icmp)).sum + v.filterWorth .icmp s.icmp +
          v.filterWorth .tcp s.tcp)
      convert kept using 1
      · simp only [total]
        abel
      · simp only [total]
        abel

lemma IsNonneg.filterWorth (nonneg : v.IsNonneg) (stage : Stage) (p : Pool FilterWork) :
    0 ≤ v.filterWorth stage p := by
  refine Pool.worth_nonneg (nonneg.before stage) (fun w => ?_) p
  cases w with
  | received c => exact nonneg.before stage c
  | busy work =>
    cases work with
    | probing c => exact nonneg.probing stage c
    | sending c =>
      cases stage with
      | icmp => exact nonneg.before .tcp c
      | tcp => exact nonneg.queued c
  | waiting | receiving | done => exact le_rfl

lemma IsNonneg.dialWorth (nonneg : v.IsNonneg) (p : Pool DialWork) : 0 ≤ v.dialWorth p := by
  refine Pool.worth_nonneg nonneg.queued (fun w => ?_) p
  cases w with
  | received c => exact nonneg.queued c
  | busy work =>
    cases work with
    | probing t => exact nonneg.dialling t
    | ranking m => exact nonneg.found m
    | checking | stopping => exact le_rfl
  | waiting | receiving | done => exact le_rfl

theorem book_le_total (nonneg : v.IsNonneg) (history : List Measurement) (s : Pipeline) :
    v.book s.ledger history ≤ v.total history s := by
  have feed : 0 ≤ ((s.feed.getD []).map (v.before .icmp)).sum := by
    refine List.sum_nonneg fun x hx => ?_
    obtain ⟨c, -, rfl⟩ := List.mem_map.mp hx
    exact nonneg.before .icmp c
  calc v.book s.ledger history
      ≤ v.book s.ledger history + ((s.feed.getD []).map (v.before .icmp)).sum :=
        le_add_of_nonneg_right feed
    _ ≤ _ + v.filterWorth .icmp s.icmp := le_add_of_nonneg_right (nonneg.filterWorth .icmp s.icmp)
    _ ≤ _ + v.filterWorth .tcp s.tcp := le_add_of_nonneg_right (nonneg.filterWorth .tcp s.tcp)
    _ ≤ v.total history s := le_add_of_nonneg_right (nonneg.dialWorth s.dial)

end Valuation

end EdgeScan.Scan
