import EdgeScan.Scan.Ledger

/-!
Pools of workers behind a bounded channel. The workers of a pool take turns at the channel: one of
them at a time waits for the next candidate, the others wait for their turn. A pool without
workers has let go of its channel.
-/

namespace EdgeScan.Scan

inductive Worker (Work : Type)
  /-- It waits for its turn at the channel. -/
  | waiting
  /-- It is its turn, and it waits for a candidate. -/
  | receiving
  /-- It has just taken a candidate. -/
  | received (candidate : Endpoint)
  | busy (work : Work)
  | done
deriving DecidableEq, Repr

namespace Worker

def isDone {Work : Type} : Worker Work → Bool
  | done => true
  | _ => false

def isReceiving {Work : Type} : Worker Work → Bool
  | receiving => true
  | _ => false

end Worker

inductive FilterWork
  | probing (candidate : Endpoint)
  | sending (candidate : Endpoint)
deriving DecidableEq, Repr

/-- What is done for a handshake: the probe, and after a success the entry into the ranking, the
test for an early stop, and the stop. -/
inductive DialWork
  | probing (target : Endpoint)
  | ranking (m : Measurement)
  | checking
  | stopping
deriving DecidableEq, Repr

/-- Workers and the channel that they take candidates from. -/
structure Pool (Work : Type) where
  inbox : List Endpoint
  workers : List (Worker Work)
deriving Repr

inductive Room
  | free
  | full
  | gone
deriving DecidableEq, Repr

namespace Pool

variable {Work : Type}

def start (size : Nat) : Pool Work := ⟨[], List.replicate size .waiting⟩

def isDone (p : Pool Work) : Bool := p.workers.all Worker.isDone

/-- Whether there is room for a candidate in the channel, whose capacity is `width`. -/
def room (p : Pool Work) (width : Nat) : Room :=
  if p.isDone then .gone else if p.inbox.length < width then .free else .full

def push (p : Pool Work) (candidates : List Endpoint) : Pool Work :=
  { p with inbox := p.inbox ++ candidates }

def become (p : Pool Work) (i : Nat) (w : Worker Work) : Pool Work :=
  { p with workers := p.workers.set i w }

/-- The next step of a worker at the channel: to take its turn, to take a candidate, or to end,
because the scan is cancelled or the channel is empty and closed. -/
def receive (p : Pool Work) (i : Nat) (cancelled more : Bool) : Option (Pool Work) :=
  match p.workers[i]? with
  | some .waiting =>
    if cancelled then some (p.become i .done)
    else if p.workers.any Worker.isReceiving then none
    else some (p.become i .receiving)
  | some .receiving =>
    if cancelled then some (p.become i .done)
    else
      match p.inbox with
      | c :: rest => some ({ p with inbox := rest }.become i (.received c))
      | [] => if more then none else some (p.become i .done)
  | _ => none

end Pool

namespace DialWork

/-- The next step of the work after a probe; nothing is left to do after the last one. -/
def advance (o : Options) (l : Ledger) : DialWork → Option (Ledger × Option DialWork)
  | probing _ => none
  | ranking m => some (l.enqueue m, some checking)
  | checking => some (l, if l.hasEnough o then some stopping else none)
  | stopping => some ((l.note .enoughFound).cancel, none)

def settle (l : Ledger) : Except ProbeError Measurement → Ledger × Option DialWork
  | .ok m => (l.succeed, some (ranking m))
  | .error e => (l.failHandshake e, none)

end DialWork

end EdgeScan.Scan
