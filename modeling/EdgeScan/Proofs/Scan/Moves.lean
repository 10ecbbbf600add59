import EdgeScan.Scan.Pipeline
import Mathlib.Tactic.ByContra
import Mathlib.Tactic.SplitIfs

/-!
What one action of a pipeline can do. An action is one of a few moves, each with the condition under
which it is made and all that it changes. What holds of runs is proved move by move.
-/
namespace EdgeScan.Scan

/-- What probes may answer to a target, given whether the scan is cancelled. No stage stands for
the handshake. -/
abbrev Replies := Bool → Option Stage → Endpoint → Outcome → Prop

/-- What a worker does at its channel. -/
inductive Pool.Turn {Work : Type} (p : Pool Work) (i : Nat) (cancelled more : Bool) :
    Pool Work → Prop
  | enter (here : p.workers[i]? = some .waiting) (running : cancelled = false)
      (free : p.workers.any Worker.isReceiving = false) :
      p.Turn i cancelled more (p.become i .receiving)
  | take {c : Endpoint} {rest : List Endpoint} (here : p.workers[i]? = some .receiving)
      (running : cancelled = false) (next : p.inbox = c :: rest) :
      p.Turn i cancelled more ({ p with inbox := rest }.become i (.received c))
  | leave {w : Worker Work} (here : p.workers[i]? = some w)
      (idle : w = .waiting ∨ w = .receiving)
      (cause : cancelled = true ∨ w = .receiving ∧ p.inbox = [] ∧ more = false) :
      p.Turn i cancelled more (p.become i .done)

/-- What a worker of a filter stage does. -/
inductive FilterWork.Move (o : Options) (replies : Replies) (stage : Stage) (l : Ledger)
    (p : Pool FilterWork) (i : Nat) (more : Bool) (room : Room) : FilterStep → Prop
  | turn {p' : Pool FilterWork} (turn : p.Turn i l.cancelled more p') :
      Move o replies stage l p i more room { ledger := l, pool := p' }
  | call {c : Endpoint} (here : p.workers[i]? = some (.received c))
      (enabled : stage.enabled o = true) :
      Move o replies stage l p i more room
        { ledger := l.call stage (stage.target o c), pool := p.become i (.busy (.probing c)) }
  | skip {c : Endpoint} (here : p.workers[i]? = some (.received c))
      (disabled : stage.enabled o = false) :
      Move o replies stage l p i more room { ledger := l, pool := p.become i (.busy (.sending c)) }
  | send {c : Endpoint} (here : p.workers[i]? = some (.busy (.sending c)))
      (running : l.cancelled = false) (free : room = .free) :
      Move o replies stage l p i more room { ledger := l, pool := p.become i .waiting, sent := [c] }
  | quit {c : Endpoint} (here : p.workers[i]? = some (.busy (.sending c)))
      (cause : l.cancelled = true ∨ room = .gone) :
      Move o replies stage l p i more room { ledger := l, pool := p.become i .done }
  | pass {c : Endpoint} {m : Measurement} (here : p.workers[i]? = some (.busy (.probing c)))
      (answer : replies l.cancelled (some stage) (stage.target o c) (.measured m))
      (within : m.rtt ≤ stage.limit o) :
      Move o replies stage l p i more room
        { ledger := (l.pass stage).note .passedFilter, pool := p.become i (.busy (.sending c)) }
  | drop {c : Endpoint} {m : Measurement} (here : p.workers[i]? = some (.busy (.probing c)))
      (answer : replies l.cancelled (some stage) (stage.target o c) (.measured m))
      (above : ¬m.rtt ≤ stage.limit o) :
      Move o replies stage l p i more room
        { ledger := l.note .aboveThreshold, pool := p.become i .waiting }
  | fail {c : Endpoint} {e : ProbeError} (here : p.workers[i]? = some (.busy (.probing c)))
      (answer : replies l.cancelled (some stage) (stage.target o c) (.failed e)) :
      Move o replies stage l p i more room { ledger := l.noteFailure e, pool := p.become i .waiting }
  | panic {c : Endpoint} (here : p.workers[i]? = some (.busy (.probing c)))
      (answer : replies l.cancelled (some stage) (stage.target o c) .panicked) :
      Move o replies stage l p i more room
        { ledger := l.note .workerPanicked, pool := p.become i .done }

/-- What a handshake worker does: the results it enters, the ledger, and its pool. -/
inductive DialWork.Move (o : Options) (replies : Replies) (l : Ledger) (p : Pool DialWork) (i : Nat)
    (more : Bool) : List Measurement → Ledger → Pool DialWork → Prop
  | turn {p' : Pool DialWork} (turn : p.Turn i l.cancelled more p') :
      Move o replies l p i more [] l p'
  | call {c : Endpoint} {port : UInt16} {source : Source}
      (here : p.workers[i]? = some (.received c))
      (drawn : (handshakePort o c.port).run l.source = (port, source)) :
      Move o replies l p i more [] ({ l with source }.dial c (.new c.address port))
        (p.become i (.busy (.probing (.new c.address port))))
  | succeed {t : Endpoint} {m : Measurement} (here : p.workers[i]? = some (.busy (.probing t)))
      (answer : replies l.cancelled none t (.measured m)) :
      Move o replies l p i more [] l.succeed (p.become i (.busy (.ranking m)))
  | fail {t : Endpoint} {e : ProbeError} (here : p.workers[i]? = some (.busy (.probing t)))
      (answer : replies l.cancelled none t (.failed e)) :
      Move o replies l p i more [] (l.failHandshake e) (p.become i .waiting)
  | panic {t : Endpoint} (here : p.workers[i]? = some (.busy (.probing t)))
      (answer : replies l.cancelled none t .panicked) :
      Move o replies l p i more [] (l.note .workerPanicked) (p.become i .done)
  | rank {m : Measurement} (here : p.workers[i]? = some (.busy (.ranking m))) :
      Move o replies l p i more [m] (l.enqueue m) (p.become i (.busy .checking))
  | enough (here : p.workers[i]? = some (.busy .checking)) (found : l.hasEnough o = true) :
      Move o replies l p i more [] l (p.become i (.busy .stopping))
  | proceed (here : p.workers[i]? = some (.busy .checking)) (found : l.hasEnough o = false) :
      Move o replies l p i more [] l (p.become i .waiting)
  | stop (here : p.workers[i]? = some (.busy .stopping)) :
      Move o replies l p i more [] (l.note .enoughFound).cancel (p.become i .waiting)

/-- What a task of a pipeline does: the results that are entered, and the state behind. -/
inductive Pipeline.Act (o : Options) (replies : Replies) (s : Pipeline) :
    PipelineTask → List Measurement → Pipeline → Prop
  | feedSends {c : Endpoint} {rest : List Endpoint} (here : s.feed = some (c :: rest))
      (running : s.ledger.cancelled = false) (free : s.icmp.room (width o) = .free) :
      s.Act o replies .feed [] { s with feed := some rest, icmp := s.icmp.push [c] }
  | feedEnds {rest : List Endpoint} (here : s.feed = some rest)
      (cause : rest = [] ∨ s.ledger.cancelled = true ∨ s.icmp.room (width o) = .gone) :
      s.Act o replies .feed [] { s with feed := none }
  | icmp {i : Nat} {n : FilterStep}
      (move : FilterWork.Move o replies .icmp s.ledger s.icmp i s.feed.isSome
        (s.tcp.room (width o)) n) :
      s.Act o replies (.filter .icmp i) []
        { s with ledger := n.ledger, icmp := n.pool, tcp := s.tcp.push n.sent }
  | tcp {i : Nat} {n : FilterStep}
      (move : FilterWork.Move o replies .tcp s.ledger s.tcp i (!s.icmp.isDone)
        (s.dial.room (width o)) n) :
      s.Act o replies (.filter .tcp i) []
        { s with ledger := n.ledger, tcp := n.pool, dial := s.dial.push n.sent }
  | dial {i : Nat} {entered : List Measurement} {l : Ledger} {p : Pool DialWork}
      (move : DialWork.Move o replies s.ledger s.dial i (!s.tcp.isDone) entered l p) :
      s.Act o replies (.dial i) entered { s with ledger := l, dial := p }

/-- What happens in a pipeline: the results that are entered, and the state behind. -/
inductive Pipeline.Move (o : Options) (replies : Replies) (s : Pipeline) :
    List Measurement → Pipeline → Prop
  | cancel (running : s.ledger.cancelled = false) :
      s.Move o replies [] { s with ledger := s.ledger.cancel }
  | report (e : Event) : s.Move o replies [] { s with ledger := s.ledger.note e }
  | act {task : PipelineTask} {entered : List Measurement} {s' : Pipeline}
      (act : s.Act o replies task entered s') : s.Move o replies entered s'

namespace Pool

variable {Work : Type} {p p' : Pool Work} {i : Nat} {cancelled more : Bool}

@[simp] theorem push_nil (p : Pool Work) : p.push [] = p := by
  simp [push]

lemma turn_of_receive (h : p.receive i cancelled more = some p') :
    p.Turn i cancelled more p' := by
  unfold receive at h
  split at h
  · rename_i here
    split_ifs at h with hc hr
    · exact Option.some.inj h ▸ .leave here (.inl rfl) (.inl hc)
    · exact Option.some.inj h ▸ .enter here (by simpa using hc) (by simpa using hr)
  · rename_i here
    by_cases hc : cancelled = true
    · rw [if_pos hc] at h
      exact Option.some.inj h ▸ .leave here (.inr rfl) (.inl hc)
    · rw [if_neg hc] at h
      split at h
      · rename_i next
        exact Option.some.inj h ▸ .take here (by simpa using hc) next
      · rename_i empty
        split_ifs at h with hm
        exact Option.some.inj h ▸ .leave here (.inr rfl) (.inr ⟨rfl, empty, by simpa using hm⟩)
  · exact absurd h (by simp)

end Pool

namespace FilterWork

variable {o : Options} {replies : Replies} {stage : Stage} {l : Ledger} {p : Pool FilterWork}
  {i : Nat} {more : Bool} {room : Room} {n : FilterStep}

lemma move_of_advance (h : advance o stage l p i more room = some n) :
    Move o replies stage l p i more room n := by
  unfold advance at h
  split at h
  · rename_i c here
    split_ifs at h with he
    · exact Option.some.inj h ▸ .call here he
    · exact Option.some.inj h ▸ .skip here (by simpa using he)
  · rename_i c here
    split_ifs at h with hq hf
    · have cause : l.cancelled = true ∨ room = .gone := by simpa using hq
      exact Option.some.inj h ▸ .quit here cause
    · have running : l.cancelled = false := by
        by_contra hc
        exact hq (by simp [hc])
      exact Option.some.inj h ▸ .send here running (by simpa using hf)
  · obtain ⟨p', hp, rfl⟩ := Option.map_eq_some_iff.mp h
    exact .turn (Pool.turn_of_receive hp)

lemma move_of_settle {outcome : Outcome} {c : Endpoint}
    (here : p.workers[i]? = some (.busy (.probing c)))
    (answer : replies l.cancelled (some stage) (stage.target o c) outcome)
    (h : settle o stage l p i outcome = some n) : Move o replies stage l p i more room n := by
  simp only [settle, here] at h
  cases outcome with
  | measured m =>
    simp only at h
    split_ifs at h with hm
    · exact Option.some.inj h ▸ .pass here answer hm
    · exact Option.some.inj h ▸ .drop here answer hm
  | failed e => exact Option.some.inj h ▸ .fail here answer
  | panicked => exact Option.some.inj h ▸ .panic here answer

lemma sent_of_settle {outcome : Outcome} (h : settle o stage l p i outcome = some n) :
    n.sent = [] := by
  unfold settle at h
  split at h
  · cases outcome with
    | measured m =>
      simp only at h
      split_ifs at h <;> exact Option.some.inj h ▸ rfl
    | failed e => exact Option.some.inj h ▸ rfl
    | panicked => exact Option.some.inj h ▸ rfl
  · exact absurd h (by simp)

end FilterWork

/-- The result that a handshake worker enters into the ranking next, if it does so. -/
def DialWork.entered (p : Pool DialWork) (i : Nat) : List Measurement :=
  match p.workers[i]? with
  | some (.busy (.ranking m)) => [m]
  | _ => []

/-- The result that an action enters into the ranking, if it does so. -/
def Pipeline.entered (s : Pipeline) : PipelineAction → List Measurement
  | .advance (.dial i) => DialWork.entered s.dial i
  | _ => []

/-- The task that an action belongs to. The cancellation from outside belongs to none. -/
def PipelineAction.task? : PipelineAction → Option PipelineTask
  | advance task => some task
  | answer task _ => some task
  | cancel => none

/-- Whether an action is one that probes allow: an answer has to be one of the target that the task
waits for. -/
def Pipeline.Allows (o : Options) (replies : Replies) (s : Pipeline) : PipelineAction → Prop
  | .answer task outcome => ∃ stage target, s.awaited o task = some (stage, target) ∧
      replies s.ledger.cancelled stage target outcome
  | _ => True

namespace Pipeline

variable {o : Options} {replies : Replies} {s s' : Pipeline}

lemma act_of_advanceFeed (h : s.advanceFeed o = some s') : s.Act o replies .feed [] s' := by
  unfold advanceFeed at h
  split at h
  · exact absurd h (by simp)
  · rename_i here
    exact Option.some.inj h ▸ .feedEnds here (.inl rfl)
  · rename_i here
    split_ifs at h with hcause hfree
    · exact Option.some.inj h ▸ .feedEnds here (.inr (by simpa using hcause))
    · have running : s.ledger.cancelled = false := by
        by_contra hc
        exact hcause (by simp [hc])
      exact Option.some.inj h ▸ .feedSends here running (by simpa using hfree)

lemma act_of_advanceDial {i : Nat} (h : s.advanceDial o i = some s') :
    s.Act o replies (.dial i) (DialWork.entered s.dial i) s' := by
  unfold advanceDial at h
  unfold DialWork.entered
  split at h
  · rename_i c here
    rw [here]
    exact Option.some.inj h ▸ .dial (.call here rfl)
  · rename_i work here
    rw [here]
    cases work with
    | probing t => exact absurd h (by simp [DialWork.advance])
    | ranking m => exact Option.some.inj h ▸ .dial (.rank here)
    | checking =>
      simp only [DialWork.advance, Option.map_some, Option.some.injEq] at h
      cases found : s.ledger.hasEnough o with
      | true => exact h ▸ .dial (by simpa [found] using .enough here found)
      | false => exact h ▸ .dial (by simpa [found] using .proceed here found)
    | stopping => exact Option.some.inj h ▸ .dial (.stop here)
  · rename_i _ notBusy
    obtain ⟨p, hp, rfl⟩ := Option.map_eq_some_iff.mp h
    split
    · rename_i here
      exact absurd here (notBusy _)
    · exact .dial (.turn (Pool.turn_of_receive hp))

lemma act_of_settleDial {i : Nat} {t : Endpoint} {outcome : Outcome}
    (here : s.dial.workers[i]? = some (.busy (.probing t)))
    (answer : replies s.ledger.cancelled none t outcome) (h : s.settleDial i outcome = some s') :
    s.Act o replies (.dial i) [] s' := by
  simp only [settleDial, here] at h
  cases outcome with
  | measured m => exact Option.some.inj h ▸ .dial (.succeed here answer)
  | failed e => exact Option.some.inj h ▸ .dial (.fail here answer)
  | panicked => exact Option.some.inj h ▸ .dial (.panic here answer)

theorem act_of_advance {task : PipelineTask} (h : s.advance o task = some s') :
    s.Act o replies task (s.entered (.advance task)) s' := by
  cases task with
  | feed => exact act_of_advanceFeed h
  | filter stage i =>
    cases stage with
    | icmp =>
      obtain ⟨n, hn, rfl⟩ := Option.map_eq_some_iff.mp h
      exact .icmp (FilterWork.move_of_advance hn)
    | tcp =>
      obtain ⟨n, hn, rfl⟩ := Option.map_eq_some_iff.mp h
      exact .tcp (FilterWork.move_of_advance hn)
  | dial i => exact act_of_advanceDial h

theorem act_of_settle {task : PipelineTask} {outcome : Outcome} {stage : Option Stage}
    {target : Endpoint} (waits : s.awaited o task = some (stage, target))
    (answer : replies s.ledger.cancelled stage target outcome)
    (h : s.settle o task outcome = some s') : s.Act o replies task [] s' := by
  unfold awaited at waits
  unfold settle at h
  split at waits
  · exact absurd waits (by simp)
  · split at waits
    · rename_i here
      cases waits
      obtain ⟨n, hn, rfl⟩ := Option.map_eq_some_iff.mp h
      have move : FilterWork.Move o replies .icmp s.ledger s.icmp _ s.feed.isSome
          (s.tcp.room (width o)) n := FilterWork.move_of_settle here answer hn
      simpa [FilterWork.sent_of_settle hn] using Act.icmp move
    · exact absurd waits (by simp)
  · split at waits
    · rename_i here
      cases waits
      obtain ⟨n, hn, rfl⟩ := Option.map_eq_some_iff.mp h
      have move : FilterWork.Move o replies .tcp s.ledger s.tcp _ (!s.icmp.isDone)
          (s.dial.room (width o)) n := FilterWork.move_of_settle here answer hn
      simpa [FilterWork.sent_of_settle hn] using Act.tcp move
    · exact absurd waits (by simp)
  · split at waits
    · rename_i here
      cases waits
      exact act_of_settleDial here answer h
    · exact absurd waits (by simp)

lemma exists_act_of_step {a : PipelineAction} {task : PipelineTask} (allowed : s.Allows o replies a)
    (h : s.step o a = some s') (mine : a.task? = some task) :
    ∃ entered, s.Act o replies task entered s' := by
  cases a with
  | advance own =>
    cases mine
    exact ⟨_, act_of_advance h⟩
  | answer own outcome =>
    cases mine
    obtain ⟨stage, target, waits, answer⟩ := allowed
    exact ⟨_, act_of_settle waits answer h⟩
  | cancel => exact absurd mine (by simp [PipelineAction.task?])

/-- Every action that probes allow is one of the moves. -/
theorem move_of_step {a : PipelineAction} (allowed : s.Allows o replies a)
    (h : s.step o a = some s') : s.Move o replies (s.entered a) s' := by
  cases a with
  | advance task => exact .act (act_of_advance h)
  | answer task outcome =>
    obtain ⟨stage, target, waits, answer⟩ := allowed
    exact .act (act_of_settle waits answer h)
  | cancel =>
    unfold step at h
    split_ifs at h with running
    exact Option.some.inj h ▸ .cancel (by simpa using running)

end Pipeline

end EdgeScan.Scan
