import EdgeScan.Scan.Pool

/-!
The dedicated scan of given endpoints: each gets a task of its own that makes one handshake.
Tasks are started one after the other until the scan is cancelled.
-/

namespace EdgeScan.Scan

inductive PairTask
  | ready (target : Endpoint)
  | busy (work : DialWork)
  | done
deriving DecidableEq, Repr

/-- The state of a dedicated scan: endpoints without a task so far, and the tasks. -/
structure PortScan where
  ledger : Ledger
  unstarted : List Endpoint
  tasks : List PairTask
deriving Repr

/-- The tasks of a dedicated scan: the one that starts the others, and one for each endpoint. -/
inductive PortScanTask
  | starter
  | pair (index : Nat)
deriving DecidableEq, Repr, Hashable

inductive PortScanAction
  | advance (task : PortScanTask)
  | answer (index : Nat) (outcome : Outcome)
  | cancel
deriving Repr

namespace PortScan

def start (l : Ledger) (targets : List Endpoint) : PortScan := ⟨l, targets, []⟩

/-- A task after some of its work: it goes on, or has ended. -/
def resume : Option DialWork → PairTask
  | some work => .busy work
  | none => .done

def become (s : PortScan) (i : Nat) (task : PairTask) : PortScan :=
  { s with tasks := s.tasks.set i task }

def advance (o : Options) (s : PortScan) : PortScanTask → Option PortScan
  | .starter =>
    match s.unstarted with
    | [] => none
    | target :: rest =>
      if s.ledger.cancelled then some { s with unstarted := [] }
      else some { s with unstarted := rest, tasks := s.tasks ++ [.ready target] }
  | .pair i =>
    match s.tasks[i]? with
    | some (.ready target) =>
      some ({ s with ledger := s.ledger.dial target target }.become i (.busy (.probing target)))
    | some (.busy work) =>
      (work.advance o s.ledger).map fun (l, next) => { s with ledger := l }.become i (resume next)
    | _ => none

def settle (s : PortScan) (i : Nat) (outcome : Outcome) : Option PortScan :=
  match s.tasks[i]? with
  | some (.busy (.probing _)) =>
    match outcome with
    | .measured m =>
      let (l, next) := DialWork.settle s.ledger (.ok m)
      some ({ s with ledger := l }.become i (resume next))
    | .failed e =>
      let (l, next) := DialWork.settle s.ledger (.error e)
      some ({ s with ledger := l }.become i (resume next))
    | .panicked => some ({ s with ledger := s.ledger.note .pairPanicked }.become i .done)
  | _ => none

def step (o : Options) (s : PortScan) : PortScanAction → Option PortScan
  | .advance task => s.advance o task
  | .answer i outcome => s.settle i outcome
  | .cancel => if s.ledger.cancelled then none else some { s with ledger := s.ledger.cancel }

def taskList (s : PortScan) : List PortScanTask :=
  .starter :: (List.range s.tasks.length).map .pair

def isDone (s : PortScan) : Bool :=
  s.unstarted.isEmpty && s.tasks.all (· == .done)

def awaited (s : PortScan) : PortScanTask → Option Endpoint
  | .starter => none
  | .pair i =>
    match s.tasks[i]? with
    | some (.busy (.probing t)) => some t
    | _ => none

end PortScan

end EdgeScan.Scan
