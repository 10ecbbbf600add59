import EdgeScan.Proofs.Scan.Results
import EdgeScan.Proofs.Scan.Traces

/-!
What is left of a pipeline that was cancelled. A choice between the cancellation and a channel is
always made for the cancellation, so nothing moves through a channel any more. A worker may still
call the probe for a candidate that it has taken before, but for no other.
-/
namespace EdgeScan.Scan

/-- The candidate that a worker has just taken. -/
def Worker.taken? {Work : Type} : Worker Work → Option Endpoint
  | received c => some c
  | _ => none

def Pool.taken? {Work : Type} (p : Pool Work) (i : ℕ) : Option Endpoint :=
  p.workers[i]?.bind Worker.taken?

def PipelineTask.probes (o : Options) : PipelineTask → Bool
  | feed => false
  | filter stage _ => stage.enabled o
  | dial _ => true

/-- The number of probes that were called. -/
def Ledger.calls (l : Ledger) : ℕ := l.icmpCalls.length + l.tcpCalls.length + l.dials.length

namespace Pipeline

/-- The candidate that a task has just taken. -/
def taken? (s : Pipeline) : PipelineTask → Option Endpoint
  | .feed => none
  | .filter .icmp i => s.icmp.taken? i
  | .filter .tcp i => s.tcp.taken? i
  | .dial i => s.dial.taken? i

/-- The probe that is called next by a task, and for which candidate. -/
def called (o : Options) (s : Pipeline) (task : PipelineTask) : List (PipelineTask × Endpoint) :=
  if task.probes o then (s.taken? task).toList.map (task, ·) else []

/-- The probes that are called in a log. -/
def calls (o : Options) (log : List (Pipeline × PipelineAction)) :
    List (PipelineTask × Endpoint) :=
  log.flatMap fun (s, a) => (a.task?.map (s.called o)).getD []

end Pipeline

namespace Pool

variable {Work : Type} {p p' : Pool Work} {i : ℕ} {w : Worker Work} {cancelled more : Bool}

lemma taken?_eq (here : p.workers[i]? = some w) : p.taken? i = w.taken? := by
  simp [taken?, here]

lemma taken?_of_turn (turn : p.Turn i cancelled more p') : p.taken? i = none := by
  cases turn with
  | enter here | take here => exact taken?_eq here
  | leave here idle => rcases idle with rfl | rfl <;> exact taken?_eq here

/-- Nothing moves through the channel of a pool, and worker `i` gets rid of a candidate that it has
just taken. -/
structure WindsDown (p : Pool Work) (i : ℕ) (p' : Pool Work) : Prop where
  inbox : p'.inbox = p.inbox
  taken (j : ℕ) (c : Endpoint) : p'.taken? j = some c → j ≠ i ∧ p.taken? j = some c

lemma windsDown_become (idle : w.taken? = none) : p.WindsDown i (p.become i w) where
  inbox := rfl
  taken j c h := by
    simp only [taken?, become, List.getElem?_set] at h
    split at h
    · split at h <;> simp [idle] at h
    · rename_i other
      exact ⟨fun same => other same.symm, h⟩

lemma windsDown_of_turn (turn : p.Turn i true more p') : p.WindsDown i p' := by
  cases turn with
  | enter here running | take here running => simp at running
  | leave => exact windsDown_become rfl

end Pool

variable {o : Options} {replies : Replies} {i : ℕ} {more : Bool}

namespace FilterWork.Move

variable {stage : Stage} {l : Ledger} {p : Pool FilterWork} {room : Room} {n : FilterStep}

lemma calls (move : Move o replies stage l p i more room n) :
    n.ledger.calls = l.calls + if stage.enabled o then (p.taken? i).toList.length else 0 := by
  cases move with
  | turn turn => simp [Pool.taken?_of_turn turn]
  | call here enabled =>
    rw [Pool.taken?_eq here, if_pos enabled]
    cases stage <;> simp only [Ledger.calls, Ledger.call, Worker.taken?, Option.toList_some,
      List.length_cons, List.length_nil] <;> omega
  | skip here disabled => simp [disabled]
  | send here | quit here | drop here | panic here =>
    simp [Pool.taken?_eq here, Worker.taken?, Ledger.calls, Ledger.note]
  | pass here =>
    cases stage <;>
      simp [Pool.taken?_eq here, Worker.taken?, Ledger.calls, Ledger.note, Ledger.pass]
  | @fail c e here =>
    obtain ⟨journal, same⟩ := l.exists_noteFailure_eq e
    simp [Pool.taken?_eq here, Worker.taken?, Ledger.calls, same]

lemma windsDown (move : Move o replies stage l p i more room n) (cancelled : l.cancelled = true) :
    p.WindsDown i n.pool ∧ n.sent = [] := by
  cases move with
  | turn turn =>
    rw [cancelled] at turn
    exact ⟨Pool.windsDown_of_turn turn, rfl⟩
  | send here running => simp [cancelled] at running
  | call | skip | quit | pass | drop | fail | panic => exact ⟨Pool.windsDown_become rfl, rfl⟩

end FilterWork.Move

namespace DialWork.Move

variable {l l' : Ledger} {p p' : Pool DialWork} {entered : List Measurement}

lemma calls (move : Move o replies l p i more entered l' p') :
    l'.calls = l.calls + (p.taken? i).toList.length := by
  cases move with
  | turn turn => simp [Pool.taken?_of_turn turn]
  | call here =>
    rw [Pool.taken?_eq here]
    rfl
  | succeed here | panic here | enough here | proceed here | stop here =>
    rw [Pool.taken?_eq here]
    rfl
  | @fail t e here =>
    obtain ⟨failed, journal, same, -⟩ := l.exists_failHandshake_eq e
    rw [Pool.taken?_eq here, same]
    rfl
  | @rank m here =>
    obtain ⟨journal, same⟩ := l.exists_enqueue_eq m
    rw [Pool.taken?_eq here, same]
    rfl

lemma windsDown (move : Move o replies l p i more entered l' p') (cancelled : l.cancelled = true) :
    p.WindsDown i p' ∧ l'.handshakesFailed = l.handshakesFailed := by
  cases move with
  | turn turn =>
    rw [cancelled] at turn
    exact ⟨Pool.windsDown_of_turn turn, rfl⟩
  | call | succeed | panic | enough | proceed | stop => exact ⟨Pool.windsDown_become rfl, rfl⟩
  | @fail t e here =>
    obtain ⟨failed, journal, same, count⟩ := l.exists_failHandshake_eq e
    refine ⟨Pool.windsDown_become rfl, ?_⟩
    simpa [same, cancelled] using count
  | @rank m here =>
    obtain ⟨journal, same⟩ := l.exists_enqueue_eq m
    rw [same]
    exact ⟨Pool.windsDown_become rfl, rfl⟩

end DialWork.Move

namespace Pipeline

variable {s s' : Pipeline} {task : PipelineTask} {entered : List Measurement}
  {log : List (Pipeline × PipelineAction)}

lemma calls_append (o : Options) (log : List (Pipeline × PipelineAction)) (s : Pipeline)
    (a : PipelineAction) :
    calls o (log ++ [(s, a)]) = calls o log ++ (a.task?.map (s.called o)).getD [] := by
  simp [calls]

lemma length_called (o : Options) (s : Pipeline) (task : PipelineTask) :
    (s.called o task).length = if task.probes o then (s.taken? task).toList.length else 0 := by
  unfold called
  split <;> simp

lemma Act.calls (act : s.Act o replies task entered s') :
    s'.ledger.calls = s.ledger.calls + (s.called o task).length := by
  rw [length_called]
  cases act with
  | feedSends | feedEnds => rfl
  | icmp move | tcp move => exact move.calls
  | dial move => exact move.calls

/-- A log shows all probes that are called. -/
theorem Trace.calls (trace : Trace o replies s log s') :
    s'.ledger.calls = s.ledger.calls + (Pipeline.calls o log).length := by
  induction trace with
  | start => rfl
  | @step log t t' a before allowed step ih =>
    rw [calls_append, List.length_append, ← add_assoc, ← ih]
    cases mine : a.task? with
    | some task =>
      obtain ⟨entered, act⟩ := exists_act_of_step allowed step mine
      exact act.calls
    | none =>
      cases a with
      | advance | answer => simp [PipelineAction.task?] at mine
      | cancel =>
        unfold Pipeline.step at step
        split_ifs at step
        exact Option.some.inj step ▸ rfl
  | report before e ih => exact ih

/-- A step of a task of a cancelled scan. -/
structure Act.WindsDown (s : Pipeline) (task : PipelineTask) (s' : Pipeline) : Prop where
  icmp : s'.icmp.inbox = s.icmp.inbox
  tcp : s'.tcp.inbox = s.tcp.inbox
  dial : s'.dial.inbox = s.dial.inbox
  handshakesFailed : s'.ledger.handshakesFailed = s.ledger.handshakesFailed
  taken (own : PipelineTask) (c : Endpoint) :
    s'.taken? own = some c → own ≠ task ∧ s.taken? own = some c

lemma Act.windsDown (act : s.Act o replies task entered s')
    (cancelled : s.ledger.cancelled = true) : Act.WindsDown s task s' := by
  cases act with
  | feedSends here running => simp [cancelled] at running
  | feedEnds =>
    refine ⟨rfl, rfl, rfl, rfl, fun own c h => ⟨?_, h⟩⟩
    rintro rfl
    exact absurd h (by simp [taken?])
  | @icmp i n move =>
    obtain ⟨winds, silent⟩ := move.windsDown cancelled
    refine ⟨winds.inbox, by simp [silent], rfl, move.handshakes.2.1, fun own c h => ?_⟩
    cases own with
    | feed => simp [taken?] at h
    | dial => exact ⟨by simp, h⟩
    | filter stage j =>
      cases stage with
      | icmp => simpa [taken?] using winds.taken j c h
      | tcp => exact ⟨by simp, h⟩
  | @tcp i n move =>
    obtain ⟨winds, silent⟩ := move.windsDown cancelled
    refine ⟨rfl, winds.inbox, by simp [silent], move.handshakes.2.1, fun own c h => ?_⟩
    cases own with
    | feed => simp [taken?] at h
    | dial => exact ⟨by simp, h⟩
    | filter stage j =>
      cases stage with
      | icmp => exact ⟨by simp, h⟩
      | tcp => simpa [taken?] using winds.taken j c h
  | @dial i entered l p move =>
    obtain ⟨winds, same⟩ := move.windsDown cancelled
    refine ⟨rfl, rfl, winds.inbox, same, fun own c h => ?_⟩
    cases own with
    | feed => simp [taken?] at h
    | filter stage => cases stage <;> exact ⟨by simp, h⟩
    | dial j => simpa [taken?] using winds.taken j c h

/-- A log of a scan that was cancelled before: nothing moves through a channel, no more handshakes
are counted as failures, and no task calls more than one probe, and that for the candidate that it
had taken when the log begins. -/
structure WindsDown (o : Options) (s : Pipeline) (log : List (Pipeline × PipelineAction))
    (s' : Pipeline) : Prop where
  cancelled : s'.ledger.cancelled = true
  icmp : s'.icmp.inbox = s.icmp.inbox
  tcp : s'.tcp.inbox = s.tcp.inbox
  dial : s'.dial.inbox = s.dial.inbox
  handshakesFailed : s'.ledger.handshakesFailed = s.ledger.handshakesFailed
  once : ((calls o log).map Prod.fst).Nodup
  held (task : PipelineTask) (c : Endpoint) : (task, c) ∈ calls o log → s.taken? task = some c
  taken (task : PipelineTask) (c : Endpoint) :
    s'.taken? task = some c → task ∉ (calls o log).map Prod.fst ∧ s.taken? task = some c

lemma called_eq (o : Options) (s : Pipeline) (task : PipelineTask) :
    s.called o task = [] ∨ ∃ c, s.taken? task = some c ∧ s.called o task = [(task, c)] := by
  unfold called
  split
  · cases held : s.taken? task with
    | none => exact .inl rfl
    | some c => exact .inr ⟨c, rfl, rfl⟩
  · exact .inl rfl

lemma WindsDown.step {t t' : Pipeline} {a : PipelineAction} (before : WindsDown o s log t)
    (mine : a.task? = some task) (after : t'.ledger.cancelled = true)
    (winds : Act.WindsDown t task t') : WindsDown o s (log ++ [(t, a)]) t' := by
  have more : calls o (log ++ [(t, a)]) = calls o log ++ t.called o task := by
    rw [calls_append, mine]
    rfl
  have left (own : PipelineTask) (c : Endpoint) (held : t'.taken? own = some c) :=
    before.taken own c (winds.taken own c held).2
  suffices held : ((calls o log ++ t.called o task).map Prod.fst).Nodup ∧
      (∀ own c, (own, c) ∈ calls o log ++ t.called o task → s.taken? own = some c) ∧
      ∀ own c, t'.taken? own = some c →
        own ∉ (calls o log ++ t.called o task).map Prod.fst ∧ s.taken? own = some c by
    rw [← more] at held
    exact ⟨after, winds.icmp.trans before.icmp, winds.tcp.trans before.tcp,
      winds.dial.trans before.dial, winds.handshakesFailed.trans before.handshakesFailed,
      held.1, held.2.1, held.2.2⟩
  rcases called_eq o t task with silent | ⟨c, here, called⟩
  · rw [silent, List.append_nil]
    exact ⟨before.once, before.held, left⟩
  · obtain ⟨new, own⟩ := before.taken task c here
    rw [called, List.map_append, List.map_singleton]
    refine ⟨before.once.append (List.nodup_singleton _) (List.disjoint_singleton.mpr new), ?_, ?_⟩
    · intro task' c' mem
      rcases List.mem_append.mp mem with old | last
      · exact before.held task' c' old
      · cases List.mem_singleton.mp last
        exact own
    · intro task' c' held
      have other := (winds.taken task' c' held).1
      obtain ⟨silent, old⟩ := left task' c' held
      exact ⟨by simpa [other] using silent, old⟩

/-- Whatever goes on after a cancellation winds the scan down. -/
theorem Trace.windsDown (trace : Trace o replies s log s') (cancelled : s.ledger.cancelled = true) :
    WindsDown o s log s' := by
  induction trace with
  | start =>
    exact ⟨cancelled, rfl, rfl, rfl, rfl, List.nodup_nil, by simp [Pipeline.calls],
      fun _ _ held => ⟨by simp [Pipeline.calls], held⟩⟩
  | @step log t t' a before allowed step ih =>
    have after := cancelled_of_move (move_of_step allowed step) ih.cancelled
    cases mine : a.task? with
    | none =>
      cases a with
      | advance | answer => simp [PipelineAction.task?] at mine
      | cancel => simp [Pipeline.step, ih.cancelled] at step
    | some task =>
      obtain ⟨entered, act⟩ := exists_act_of_step allowed step mine
      exact ih.step mine after (act.windsDown ih.cancelled)
  | report before e ih =>
    exact ⟨ih.cancelled, ih.icmp, ih.tcp, ih.dial, ih.handshakesFailed, ih.once, ih.held, ih.taken⟩

end Pipeline

end EdgeScan.Scan
