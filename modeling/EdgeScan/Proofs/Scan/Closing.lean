import EdgeScan.Proofs.Scan.Valuation

/-!
How the channels of a pipeline close. As long as the scan is not cancelled and no worker is lost to
a panic, it leaves its pool only when nothing can come any more: the channel is empty, and all that
send into it have ended. So nobody is left with a candidate that no one takes. What happens in front
of a stage does not matter for that; a panic there costs candidates that are not counted yet.
-/
namespace EdgeScan.Scan

/-- Whether a worker has left the pool. -/
def Pool.HasLeft {Work : Type} (p : Pool Work) : Prop := ∃ w ∈ p.workers, w.isDone = true

/-- A stage loses no worker to a panic of its probe. One that is switched off calls no probe. -/
def Steady (o : Options) (replies : Replies) : Option Stage → Prop
  | some stage =>
    stage.enabled o = true → ∀ cancelled t, ¬replies cancelled (some stage) t .panicked
  | none => ∀ cancelled t, ¬replies cancelled none t .panicked

/-- Neither a stage nor any behind it loses a worker to a panic. -/
def SteadyFrom (o : Options) (replies : Replies) : Option Stage → Prop
  | some .icmp =>
    Steady o replies (some .icmp) ∧ Steady o replies (some .tcp) ∧ Steady o replies none
  | some .tcp => Steady o replies (some .tcp) ∧ Steady o replies none
  | none => Steady o replies none

/-- A filter that is switched off never waits for a probe. -/
def FilterWork.Unprobed (o : Options) (stage : Stage) (p : Pool FilterWork) : Prop :=
  stage.enabled o = false → ∀ c, Worker.busy (.probing c) ∉ p.workers

/-- Nobody has left a pool before its channel was empty and closed, apart from panics. -/
structure Pipeline.Closing (o : Options) (replies : Replies) (s : Pipeline) : Prop where
  icmp : SteadyFrom o replies (some .icmp) → s.icmp.HasLeft → s.feed = none ∧ s.icmp.inbox = []
  tcp : SteadyFrom o replies (some .tcp) → s.tcp.HasLeft → s.icmp.isDone = true ∧ s.tcp.inbox = []
  dial : SteadyFrom o replies none → s.dial.HasLeft → s.tcp.isDone = true ∧ s.dial.inbox = []
  staffed : s.icmp.workers ≠ [] ∧ s.tcp.workers ≠ [] ∧ s.dial.workers ≠ []
  unprobed : FilterWork.Unprobed o .icmp s.icmp ∧ FilterWork.Unprobed o .tcp s.tcp

/-- Wherever a panic could leave candidates behind, they are worth nothing. -/
structure Valuation.Secure {M : Type} [Zero M] (v : Valuation M) (o : Options) (replies : Replies) :
    Prop where
  icmp : SteadyFrom o replies (some .icmp) ∨ ∀ c, v.before .icmp c = 0
  tcp : SteadyFrom o replies (some .tcp) ∨ ∀ c, v.before .tcp c = 0
  dial : SteadyFrom o replies none ∨ ∀ c, v.queued c = 0

theorem Valuation.secure_of_quiet {M : Type} [Zero M] (v : Valuation M) (o : Options)
    {replies : Replies} (quiet : ∀ cancelled stage t, ¬replies cancelled stage t .panicked) :
    v.Secure o replies where
  icmp := .inl ⟨fun _ _ _ => quiet _ _ _, fun _ _ _ => quiet _ _ _, fun _ _ => quiet _ _ _⟩
  tcp := .inl ⟨fun _ _ _ => quiet _ _ _, fun _ _ => quiet _ _ _⟩
  dial := .inl fun _ _ => quiet _ _ _

namespace Pool

variable {Work : Type} {p p' : Pool Work} {i : ℕ} {w : Worker Work} {cancelled more : Bool}

lemma hasLeft_of_isDone (staffed : p.workers ≠ []) (done : p.isDone = true) : p.HasLeft := by
  obtain ⟨w, hw⟩ := List.exists_mem_of_ne_nil _ staffed
  exact ⟨w, hw, List.all_eq_true.mp done w hw⟩

lemma hasLeft_become (h : (p.become i w).HasLeft) : p.HasLeft ∨ w.isDone = true := by
  obtain ⟨x, hx, done⟩ := h
  rcases List.mem_or_eq_of_mem_set hx with hx | rfl
  · exact .inl ⟨x, hx, done⟩
  · exact .inr done

theorem hasLeft_of_become (working : w.isDone = false) (h : (p.become i w).HasLeft) : p.HasLeft :=
  (hasLeft_become h).resolve_right (by simp [working])

@[simp] theorem length_become (p : Pool Work) (i : ℕ) (w : Worker Work) :
    (p.become i w).workers.length = p.workers.length :=
  List.length_set

lemma start_ne_nil {size : ℕ} (pos : 0 < size) : (start size : Pool Work).workers ≠ [] := by
  simpa [start] using pos.ne'

lemma not_hasLeft_start (size : ℕ) : ¬(start size : Pool Work).HasLeft := by
  rintro ⟨w, hw, done⟩
  rw [List.eq_of_mem_replicate hw] at done
  exact absurd done (by simp [Worker.isDone])

theorem closing_of_turn (turn : p.Turn i cancelled more p') (running : cancelled = false)
    (left : p'.HasLeft) : p.HasLeft ∨ p.inbox = [] ∧ more = false := by
  cases turn with
  | enter here => exact .inl (hasLeft_of_become rfl left)
  | take here => exact .inl (hasLeft_of_become rfl left)
  | leave here idle cause =>
    rcases cause with h | ⟨-, empty, closed⟩
    · simp [h] at running
    · exact .inr ⟨empty, closed⟩

lemma inbox_of_turn (turn : p.Turn i cancelled more p') (empty : p.inbox = []) :
    p'.inbox = [] := by
  cases turn with
  | enter | leave => exact empty
  | take here running next => simp [empty] at next

lemma isDone_of_turn (turn : p.Turn i cancelled more p') : p.isDone = false := by
  cases turn with
  | enter here => exact isDone_eq_false here rfl
  | take here => exact isDone_eq_false here rfl
  | leave here idle => rcases idle with rfl | rfl <;> exact isDone_eq_false here rfl

lemma length_of_turn (turn : p.Turn i cancelled more p') :
    p'.workers.length = p.workers.length := by
  cases turn with
  | enter | take | leave => exact length_become _ _ _

lemma not_mem_of_turn {work : Work} (turn : p.Turn i cancelled more p')
    (h : Worker.busy work ∉ p.workers) : Worker.busy work ∉ p'.workers := by
  cases turn with
  | enter | take | leave =>
    intro mem
    rcases List.mem_or_eq_of_mem_set mem with old | new
    · exact h old
    · simp at new

end Pool

variable {o : Options} {replies : Replies} {i : ℕ} {more : Bool}

namespace FilterWork.Move

variable {stage : Stage} {l : Ledger} {p : Pool FilterWork} {room : Room} {n : FilterStep}

theorem isDone_eq_false (move : Move o replies stage l p i more room n) : p.isDone = false := by
  cases move with
  | turn turn => exact Pool.isDone_of_turn turn
  | call here | skip here | send here | quit here | pass here | drop here | fail here
  | panic here => exact Pool.isDone_eq_false here rfl

lemma length_workers (move : Move o replies stage l p i more room n) :
    n.pool.workers.length = p.workers.length := by
  cases move with
  | turn turn => exact Pool.length_of_turn turn
  | call | skip | send | quit | pass | drop | fail | panic => exact Pool.length_become _ _ _

lemma inbox_eq_nil (move : Move o replies stage l p i more room n) (empty : p.inbox = []) :
    n.pool.inbox = [] := by
  cases move with
  | turn turn => exact Pool.inbox_of_turn turn empty
  | call | skip | send | quit | pass | drop | fail | panic => exact empty

lemma unprobed (move : Move o replies stage l p i more room n) (before : Unprobed o stage p) :
    Unprobed o stage n.pool := by
  intro disabled c
  cases move with
  | turn turn => exact Pool.not_mem_of_turn turn (before disabled c)
  | call here enabled => simp [disabled] at enabled
  | skip here | send here | quit here | pass here | drop here | fail here | panic here =>
    intro mem
    rcases List.mem_or_eq_of_mem_set mem with old | new
    · exact before disabled c old
    · simp at new

/-- In a steady stage of a scan that goes on a worker leaves only when nothing can come any more. -/
theorem leaves (move : Move o replies stage l p i more room n)
    (steady : Steady o replies (some stage)) (unprobed : Unprobed o stage p)
    (running : l.cancelled = false) (attended : room ≠ .gone) (left : n.pool.HasLeft) :
    p.HasLeft ∨ p.inbox = [] ∧ more = false := by
  cases move with
  | turn turn => exact Pool.closing_of_turn turn running left
  | call here | skip here | send here | pass here | drop here | fail here =>
    exact .inl (Pool.hasLeft_of_become rfl left)
  | quit here cause =>
    rcases cause with h | h
    · simp [h] at running
    · exact absurd h attended
  | panic here answer =>
    cases enabled : stage.enabled o with
    | true => exact absurd answer (steady enabled _ _)
    | false => exact absurd (List.mem_of_getElem? here) (unprobed enabled _)

end FilterWork.Move

namespace DialWork.Move

variable {l l' : Ledger} {p p' : Pool DialWork} {entered : List Measurement}

lemma isDone_eq_false (move : Move o replies l p i more entered l' p') : p.isDone = false := by
  cases move with
  | turn turn => exact Pool.isDone_of_turn turn
  | call here | succeed here | fail here | panic here | rank here | enough here | proceed here
  | stop here => exact Pool.isDone_eq_false here rfl

lemma length_workers (move : Move o replies l p i more entered l' p') :
    p'.workers.length = p.workers.length := by
  cases move with
  | turn turn => exact Pool.length_of_turn turn
  | call | succeed | fail | panic | rank | enough | proceed | stop =>
    exact Pool.length_become _ _ _

lemma inbox_eq_nil (move : Move o replies l p i more entered l' p') (empty : p.inbox = []) :
    p'.inbox = [] := by
  cases move with
  | turn turn => exact Pool.inbox_of_turn turn empty
  | call | succeed | fail | panic | rank | enough | proceed | stop => exact empty

lemma leaves (move : Move o replies l p i more entered l' p') (steady : Steady o replies none)
    (running : l.cancelled = false) (left : p'.HasLeft) :
    p.HasLeft ∨ p.inbox = [] ∧ more = false := by
  cases move with
  | turn turn => exact Pool.closing_of_turn turn running left
  | call here | succeed here | fail here | rank here | enough here | proceed here | stop here =>
    exact .inl (Pool.hasLeft_of_become rfl left)
  | panic here answer => exact absurd answer (steady _ _)

end DialWork.Move

lemma ne_nil_of_length_eq {α : Type} {l l' : List α} (same : l'.length = l.length) (h : l ≠ []) :
    l' ≠ [] := by
  rw [← List.length_pos_iff] at h ⊢
  omega

namespace Pipeline

variable {s s' : Pipeline} {start : Pipeline} {history entered : List Measurement}

lemma Closing.tcp_room (closing : s.Closing o replies) (steady : SteadyFrom o replies (some .tcp))
    (working : s.icmp.isDone = false) : s.tcp.room (width o) ≠ .gone := by
  intro gone
  have left := Pool.hasLeft_of_isDone closing.staffed.2.1 (Pool.isDone_of_room gone)
  simp [(closing.tcp steady left).1] at working

lemma Closing.dial_room (closing : s.Closing o replies) (steady : SteadyFrom o replies none)
    (working : s.tcp.isDone = false) : s.dial.room (width o) ≠ .gone := by
  intro gone
  have left := Pool.hasLeft_of_isDone closing.staffed.2.2 (Pool.isDone_of_room gone)
  simp [(closing.dial steady left).1] at working

lemma closing_opened (o : Options) (replies : Replies) (source : Source) (cancelled : Bool)
    (journal : List Event) (candidates : List Endpoint) :
    (opened o source cancelled journal candidates).Closing o replies where
  icmp _ left := absurd left (Pool.not_hasLeft_start _)
  tcp _ left := absurd left (Pool.not_hasLeft_start _)
  dial _ left := absurd left (Pool.not_hasLeft_start _)
  staffed := by
    have pos : 0 < width o := by
      unfold width
      omega
    refine ⟨Pool.start_ne_nil ?_, Pool.start_ne_nil ?_, Pool.start_ne_nil pos⟩
    · split <;> omega
    · split <;> omega
  unprobed := by
    refine ⟨fun _ c mem => ?_, fun _ c mem => ?_⟩ <;>
      exact absurd (List.eq_of_mem_replicate mem) (by simp)

/-- As long as the scan goes on, every move keeps the order in which channels close. -/
theorem closing_of_move (move : s.Move o replies entered s') (running : s'.ledger.cancelled = false)
    (closing : s.Closing o replies) : s'.Closing o replies := by
  have before := running_of_move move running
  cases move with
  | cancel => exact absurd running (by simp [Ledger.cancel])
  | report =>
    exact ⟨closing.icmp, closing.tcp, closing.dial, closing.staffed, closing.unprobed⟩
  | act act =>
    cases act with
    | feedSends here =>
      refine ⟨fun steady left => ?_, closing.tcp, closing.dial, closing.staffed, closing.unprobed⟩
      simp [(closing.icmp steady left).1] at here
    | feedEnds =>
      exact ⟨fun steady left => ⟨rfl, (closing.icmp steady left).2⟩, closing.tcp, closing.dial,
        closing.staffed, closing.unprobed⟩
    | icmp move =>
      have working := move.isDone_eq_false
      refine ⟨fun steady left => ?_, fun steady left => ?_, closing.dial,
        ⟨ne_nil_of_length_eq move.length_workers closing.staffed.1, closing.staffed.2⟩,
        ⟨move.unprobed closing.unprobed.1, closing.unprobed.2⟩⟩
      · have attended := closing.tcp_room steady.2 working
        rcases move.leaves steady.1 closing.unprobed.1 before attended left with
          left | ⟨empty, closed⟩
        · exact ⟨(closing.icmp steady left).1, move.inbox_eq_nil (closing.icmp steady left).2⟩
        · exact ⟨by simpa using closed, move.inbox_eq_nil empty⟩
      · have done := (closing.tcp steady left).1
        simp [working] at done
    | tcp move =>
      have working := move.isDone_eq_false
      refine ⟨closing.icmp, fun steady left => ?_, fun steady left => ?_,
        ⟨closing.staffed.1, ne_nil_of_length_eq move.length_workers closing.staffed.2.1,
          closing.staffed.2.2⟩,
        ⟨closing.unprobed.1, move.unprobed closing.unprobed.2⟩⟩
      · have attended := closing.dial_room steady.2 working
        rcases move.leaves steady.1 closing.unprobed.2 before attended left with
          left | ⟨empty, closed⟩
        · exact ⟨(closing.tcp steady left).1, move.inbox_eq_nil (closing.tcp steady left).2⟩
        · exact ⟨by simpa using closed, move.inbox_eq_nil empty⟩
      · have done := (closing.dial steady left).1
        simp [working] at done
    | dial move =>
      refine ⟨closing.icmp, closing.tcp, fun steady left => ?_,
        ⟨closing.staffed.1, closing.staffed.2.1,
          ne_nil_of_length_eq move.length_workers closing.staffed.2.2⟩, closing.unprobed⟩
      rcases move.leaves steady before left with left | ⟨empty, closed⟩
      · exact ⟨(closing.dial steady left).1, move.inbox_eq_nil (closing.dial steady left).2⟩
      · exact ⟨by simpa using closed, move.inbox_eq_nil empty⟩

theorem closing_of_reaches {source : Source} {cancelled : Bool} {journal : List Event}
    {candidates : List Endpoint}
    (reached : Reaches o replies (opened o source cancelled journal candidates) history s)
    (running : s.ledger.cancelled = false) : s.Closing o replies := by
  refine reached.invariant (P := fun _ s => s.ledger.cancelled = false → s.Closing o replies)
    (fun _ => closing_opened o replies source cancelled journal candidates) ?_ running
  intro history s entered s' _ ih move running
  exact closing_of_move move running (ih (running_of_move move running))

end Pipeline

theorem Pool.worth_of_isDone {M Work : Type} [AddCommMonoid M] {channel : Endpoint → M}
    {worker : Worker Work → M} {p : Pool Work} (idle : worker .done = 0) (done : p.isDone = true)
    (empty : p.inbox = [] ∨ ∀ c, channel c = 0) : p.worth channel worker = 0 := by
  have workers : (p.workers.map worker).sum = 0 := by
    refine List.sum_eq_zero fun x hx => ?_
    obtain ⟨w, hw, rfl⟩ := List.mem_map.mp hx
    have ended := List.all_eq_true.mp done w hw
    cases w <;> first | exact idle | simp [Worker.isDone] at ended
  have inbox : (p.inbox.map channel).sum = 0 := by
    refine List.sum_eq_zero fun x hx => ?_
    obtain ⟨c, hc, rfl⟩ := List.mem_map.mp hx
    rcases empty with empty | worthless
    · simp [empty] at hc
    · exact worthless c
  rw [worth, inbox, workers, add_zero]

namespace Valuation

variable {M : Type} [AddCommMonoid M] {v : Valuation M} {s : Pipeline} {source : Source}
  {cancelled : Bool} {journal : List Event} {candidates : List Endpoint}
  {history : List Measurement}

lemma total_opened (v : Valuation M) (o : Options) (source : Source) (cancelled : Bool)
    (journal : List Event) (candidates : List Endpoint) :
    v.total [] (.opened o source cancelled journal candidates) =
      v.book (Pipeline.opened o source cancelled journal candidates).ledger [] +
        (candidates.map (v.before .icmp)).sum := by
  have icmp := Pool.worth_start (v.before .icmp) (v.filterWorker .icmp)
    (if o.icmpFilter then width o else 1) rfl
  have tcp := Pool.worth_start (v.before .tcp) (v.filterWorker .tcp)
    (if o.tcpFilter then width o else 1) rfl
  have dial := Pool.worth_start v.queued v.dialWorker (width o) rfl
  simp [total, Pipeline.opened, Pipeline.start, filterWorth, dialWorth, icmp, tcp, dial]

/-- As long as the scan goes on, nothing of worth is sent where nobody receives any more. -/
theorem attended_of_closing (secure : v.Secure o replies) (closing : s.Closing o replies) :
    v.Attended s where
  feed c here gone := by
    rcases secure.icmp with steady | worthless
    · have left := Pool.hasLeft_of_isDone closing.staffed.1 gone
      simp [(closing.icmp steady left).1] at here
    · exact worthless c
  icmp c working gone := by
    rcases secure.tcp with steady | worthless
    · have left := Pool.hasLeft_of_isDone closing.staffed.2.1 gone
      simp [(closing.tcp steady left).1] at working
    · exact worthless c
  tcp c working gone := by
    rcases secure.dial with steady | worthless
    · have left := Pool.hasLeft_of_isDone closing.staffed.2.2 gone
      simp [(closing.dial steady left).1] at working
    · exact worthless c

theorem total_of_isDone (history : List Measurement) (secure : v.Secure o replies)
    (closing : s.Closing o replies) (done : s.isDone = true) :
    v.total history s = v.book s.ledger history := by
  simp only [Pipeline.isDone, Bool.and_eq_true, Option.isNone_iff_eq_none] at done
  obtain ⟨⟨⟨feed, icmpDone⟩, tcpDone⟩, dialDone⟩ := done
  have icmp : v.filterWorth .icmp s.icmp = 0 := by
    refine Pool.worth_of_isDone rfl icmpDone (secure.icmp.imp (fun steady => ?_) id)
    exact (closing.icmp steady (Pool.hasLeft_of_isDone closing.staffed.1 icmpDone)).2
  have tcp : v.filterWorth .tcp s.tcp = 0 := by
    refine Pool.worth_of_isDone rfl tcpDone (secure.tcp.imp (fun steady => ?_) id)
    exact (closing.tcp steady (Pool.hasLeft_of_isDone closing.staffed.2.1 tcpDone)).2
  have dial : v.dialWorth s.dial = 0 := by
    refine Pool.worth_of_isDone rfl dialDone (secure.dial.imp (fun steady => ?_) id)
    exact (closing.dial steady (Pool.hasLeft_of_isDone closing.staffed.2.2 dialDone)).2
  simp [total, feed, icmp, tcp, dial]

variable [PartialOrder M] [IsOrderedAddMonoid M] {exact : Prop}

/-- No run gains any worth, and in an exact account no run that was not cancelled loses any. -/
theorem total_of_reaches (lawful : v.Lawful o replies exact) (secure : exact → v.Secure o replies)
    (reached : Pipeline.Reaches o replies (.opened o source cancelled journal candidates)
      history s) :
    Keeps exact s.ledger.cancelled (v.total [] (.opened o source cancelled journal candidates))
      (v.total history s) := by
  refine reached.invariant (P := fun history s => Keeps exact s.ledger.cancelled
    (v.total [] (.opened o source cancelled journal candidates)) (v.total history s))
    (.of_eq rfl) ?_
  intro history s entered s' before ih move
  have kept := total_keeps lawful move
    (fun he hc => attended_of_closing (secure he) (Pipeline.closing_of_reaches before hc)) history
  refine ⟨kept.1.trans ih.1, fun he hc => ?_⟩
  have running := Pipeline.running_of_move move hc
  exact (kept.2 he running).trans (ih.2 he running)

theorem book_le_of_reaches (lawful : v.Lawful o replies False) (nonneg : v.IsNonneg)
    (reached : Pipeline.Reaches o replies (.opened o source cancelled journal candidates)
      history s) :
    v.book s.ledger history ≤
      v.book (Pipeline.opened o source cancelled journal candidates).ledger [] +
        (candidates.map (v.before .icmp)).sum := by
  rw [← total_opened]
  exact (book_le_total nonneg history s).trans (total_of_reaches lawful False.elim reached).1

/-- When all tasks of a scan that was not cancelled have ended, an exact account has passed from
the candidates to the ledger. -/
theorem book_of_isDone (lawful : v.Lawful o replies True) (secure : v.Secure o replies)
    (reached : Pipeline.Reaches o replies (.opened o source cancelled journal candidates) history s)
    (done : s.isDone = true) (running : s.ledger.cancelled = false) :
    v.book s.ledger history =
      v.book (Pipeline.opened o source cancelled journal candidates).ledger [] +
        (candidates.map (v.before .icmp)).sum := by
  have closing := Pipeline.closing_of_reaches reached running
  rw [← total_opened, ← total_of_isDone history secure closing done]
  exact (total_of_reaches lawful (fun _ => secure) reached).2 trivial running

end Valuation

end EdgeScan.Scan
