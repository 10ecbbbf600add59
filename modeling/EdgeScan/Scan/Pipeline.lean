import EdgeScan.Scan.Pool

/-!
The scan of a list of candidates as a pipeline: a task that feeds candidates in, the two filter
stages, and the handshake workers, joined by bounded channels. A filter that is switched off is
replaced by one worker that hands candidates on unseen.

`Pipeline.step` says what each task may do next, one atomic action at a time: a choice between the
cancellation of the scan and a channel is one action, in which the cancellation comes first. Every
order of actions is a run of the scan; which one happens is for a scheduler to decide.
-/

namespace EdgeScan.Scan

inductive PipelineTask
  | feed
  | filter (stage : Stage) (worker : Nat)
  | dial (worker : Nat)
deriving DecidableEq, Repr, Hashable

/-- The state of a pipeline. The feed is `none` when it has ended. -/
structure Pipeline where
  ledger : Ledger
  feed : Option (List Endpoint)
  icmp : Pool FilterWork
  tcp : Pool FilterWork
  dial : Pool DialWork
deriving Repr

/-- One thing that happens: a task takes a step of its own, the probe that a task waits for
answers, or the scan is cancelled from outside. -/
inductive PipelineAction
  | advance (task : PipelineTask)
  | answer (task : PipelineTask) (outcome : Outcome)
  | cancel
deriving Repr

/-- What a step inside a filter stage leads to: the ledger, the stage, and what it sends on. -/
structure FilterStep where
  ledger : Ledger
  pool : Pool FilterWork
  sent : List Endpoint := []

/-- The number of workers of a stage, and the capacity of a channel. -/
def width (o : Options) : Nat := max o.workers 1

namespace FilterWork

/-- The next step of a worker of a filter stage. `more` tells whether further candidates may come,
`room` what the worker finds at the channel behind the stage. -/
def advance (o : Options) (stage : Stage) (l : Ledger) (p : Pool FilterWork) (i : Nat)
    (more : Bool) (room : Room) : Option FilterStep :=
  match p.workers[i]? with
  | some (.received c) =>
    if stage.enabled o then
      some { ledger := l.call stage (stage.target o c), pool := p.become i (.busy (.probing c)) }
    else some { ledger := l, pool := p.become i (.busy (.sending c)) }
  | some (.busy (.sending c)) =>
    if l.cancelled || room == .gone then some { ledger := l, pool := p.become i .done }
    else if room == .free then
      some { ledger := l, pool := p.become i .waiting, sent := [c] }
    else none
  | _ => (p.receive i l.cancelled more).map fun p => { ledger := l, pool := p }

/-- What follows from the answer that a worker of a filter stage waited for: candidates within the
limit are sent on, all others are dropped. -/
def settle (o : Options) (stage : Stage) (l : Ledger) (p : Pool FilterWork) (i : Nat)
    (outcome : Outcome) : Option FilterStep :=
  match p.workers[i]? with
  | some (.busy (.probing c)) =>
    match outcome with
    | .measured m =>
      if m.rtt ≤ stage.limit o then
        some { ledger := (l.pass stage).note .passedFilter,
               pool := p.become i (.busy (.sending c)) }
      else some { ledger := l.note .aboveThreshold, pool := p.become i .waiting }
    | .failed e => some { ledger := l.noteFailure e, pool := p.become i .waiting }
    | .panicked => some { ledger := l.note .workerPanicked, pool := p.become i .done }
  | _ => none

end FilterWork

namespace Pipeline

def start (o : Options) (l : Ledger) (candidates : List Endpoint) : Pipeline where
  ledger := l
  feed := some candidates
  icmp := .start (if o.icmpFilter then width o else 1)
  tcp := .start (if o.tcpFilter then width o else 1)
  dial := .start (width o)

/-- The next step of the feed: it ends when it has nothing left to send, when the scan is
cancelled, or when nobody receives any more. -/
def advanceFeed (o : Options) (s : Pipeline) : Option Pipeline :=
  match s.feed with
  | none => none
  | some [] => some { s with feed := none }
  | some (c :: rest) =>
    if s.ledger.cancelled || s.icmp.room (width o) == .gone then some { s with feed := none }
    else if s.icmp.room (width o) == .free then
      some { s with feed := some rest, icmp := s.icmp.push [c] }
    else none

def advanceIcmp (o : Options) (s : Pipeline) (i : Nat) : Option Pipeline :=
  (FilterWork.advance o .icmp s.ledger s.icmp i s.feed.isSome (s.tcp.room (width o))).map
    fun n => { s with ledger := n.ledger, icmp := n.pool, tcp := s.tcp.push n.sent }

def advanceTcp (o : Options) (s : Pipeline) (i : Nat) : Option Pipeline :=
  (FilterWork.advance o .tcp s.ledger s.tcp i (!s.icmp.isDone) (s.dial.room (width o))).map
    fun n => { s with ledger := n.ledger, tcp := n.pool, dial := s.dial.push n.sent }

/-- A handshake worker after some of its work: it goes on, or waits for the next candidate. -/
def resume : Option DialWork → Worker DialWork
  | some work => .busy work
  | none => .waiting

/-- The next step of a handshake worker. The port of a candidate is settled when it is dialled. -/
def advanceDial (o : Options) (s : Pipeline) (i : Nat) : Option Pipeline :=
  match s.dial.workers[i]? with
  | some (.received c) =>
    let (port, source) := (handshakePort o c.port).run s.ledger.source
    let target := Endpoint.new c.address port
    let l := { s.ledger with source }
    some { s with ledger := l.dial c target, dial := s.dial.become i (.busy (.probing target)) }
  | some (.busy work) =>
    (work.advance o s.ledger).map fun (l, next) =>
      { s with ledger := l, dial := s.dial.become i (resume next) }
  | _ =>
    (s.dial.receive i s.ledger.cancelled (!s.tcp.isDone)).map fun p => { s with dial := p }

def advance (o : Options) (s : Pipeline) : PipelineTask → Option Pipeline
  | .feed => s.advanceFeed o
  | .filter .icmp i => s.advanceIcmp o i
  | .filter .tcp i => s.advanceTcp o i
  | .dial i => s.advanceDial o i

def settleDial (s : Pipeline) (i : Nat) (outcome : Outcome) : Option Pipeline :=
  match s.dial.workers[i]? with
  | some (.busy (.probing _)) =>
    match outcome with
    | .measured m =>
      let (l, next) := DialWork.settle s.ledger (.ok m)
      some { s with ledger := l, dial := s.dial.become i (resume next) }
    | .failed e =>
      let (l, next) := DialWork.settle s.ledger (.error e)
      some { s with ledger := l, dial := s.dial.become i (resume next) }
    | .panicked =>
      some { s with ledger := s.ledger.note .workerPanicked, dial := s.dial.become i .done }
  | _ => none

def settle (o : Options) (s : Pipeline) (task : PipelineTask) (outcome : Outcome) :
    Option Pipeline :=
  match task with
  | .feed => none
  | .filter .icmp i =>
    (FilterWork.settle o .icmp s.ledger s.icmp i outcome).map
      fun n => { s with ledger := n.ledger, icmp := n.pool }
  | .filter .tcp i =>
    (FilterWork.settle o .tcp s.ledger s.tcp i outcome).map
      fun n => { s with ledger := n.ledger, tcp := n.pool }
  | .dial i => s.settleDial i outcome

/-- The state after an action, if it can happen. -/
def step (o : Options) (s : Pipeline) : PipelineAction → Option Pipeline
  | .advance task => s.advance o task
  | .answer task outcome => s.settle o task outcome
  | .cancel => if s.ledger.cancelled then none else some { s with ledger := s.ledger.cancel }

def tasks (s : Pipeline) : List PipelineTask :=
  .feed :: ((List.range s.icmp.workers.length).map (.filter .icmp) ++
    (List.range s.tcp.workers.length).map (.filter .tcp) ++
    (List.range s.dial.workers.length).map .dial)

def isDone (s : Pipeline) : Bool :=
  s.feed.isNone && s.icmp.isDone && s.tcp.isDone && s.dial.isDone

/-- The probe and the target that a task waits for; no stage stands for the handshake. -/
def awaited (o : Options) (s : Pipeline) : PipelineTask → Option (Option Stage × Endpoint)
  | .feed => none
  | .filter .icmp i =>
    match s.icmp.workers[i]? with
    | some (.busy (.probing c)) => some (some .icmp, Stage.icmp.target o c)
    | _ => none
  | .filter .tcp i =>
    match s.tcp.workers[i]? with
    | some (.busy (.probing c)) => some (some .tcp, Stage.tcp.target o c)
    | _ => none
  | .dial i =>
    match s.dial.workers[i]? with
    | some (.busy (.probing t)) => some (none, t)
    | _ => none

end Pipeline

end EdgeScan.Scan
