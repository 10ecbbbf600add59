import EdgeScan.Proofs.Options.UsablePorts
import EdgeScan.Proofs.Random
import EdgeScan.Proofs.Scan.Flow
import EdgeScan.Proofs.Scan.Pairs

/-!
The ports of handshakes. A pipeline asks a candidate at its own port, else at the port of the
options, else at one of the default ports; a dedicated scan asks at the ports that it is given. With
the options of a command line and a configuration file port 0 is never asked.
-/
namespace EdgeScan

/-- How a port is settled for a candidate: it is the candidate's own, else that of the options, else
one of the default ports. Port 0 stands for none. -/
structure Options.SettlesPort (o : Options) (own port : UInt16) : Prop where
  ofCandidate : own ≠ 0 → port = own
  ofOptions : own = 0 → o.port ≠ 0 → port = o.port
  ofDefaults : own = 0 → o.port = 0 → port ∈ o.defaultPorts

namespace Options

variable {o : Options} {own port : UInt16}

lemma SettlesPort.ne_zero (settles : o.SettlesPort own port) (usable : o.UsablePorts) :
    port ≠ 0 := by
  by_cases none : own = 0
  · by_cases open_ : o.port = 0
    · exact usable.default port (settles.ofDefaults none open_)
    · exact settles.ofOptions none open_ ▸ open_
  · exact settles.ofCandidate none ▸ none

end Options

namespace Scan

variable {o : Options} {own : UInt16}

/-- Where there are default ports, one of them is taken if no port is given. -/
theorem always_handshakePort (some_ : o.defaultPorts ≠ []) (own : UInt16) :
    Draw.Always (o.SettlesPort own) (handshakePort o own) := by
  unfold handshakePort
  split_ifs with given configured
  · exact Draw.always_pure
      ⟨fun _ => rfl, fun none => absurd none given, fun none => absurd none given⟩
  · exact Draw.always_pure
      ⟨fun own => absurd own given, fun _ _ => rfl, fun _ none => absurd none configured⟩
  · refine (Draw.always_choose some_ defaultHandshakePort).imp fun port hport => ?_
    exact ⟨fun own => absurd own given, fun _ own => absurd own configured, fun _ _ => hport⟩

theorem Pipeline.ports_of_reaches {replies : Replies} {source : Source} {cancelled : Bool}
    {journal : List Event} {candidates : List Endpoint} {history : List Measurement} {s : Pipeline}
    (usable : o.UsablePorts)
    (reached : Reaches o replies (opened o source cancelled journal candidates) history s) :
    ∀ d ∈ s.ledger.dials,
      d.target.port ≠ 0 ∧ o.SettlesPort d.candidate.port d.target.port := by
  refine forall_dials_of_reaches (fun c source => ?_) reached
  have settles := always_handshakePort usable.some_ c.port source
  rw [Endpoint.port_new]
  exact ⟨settles.ne_zero usable, settles⟩

theorem PortScan.ports_of_reaches {replies : Replies} {source : Source} {cancelled : Bool}
    {journal : List Event} {history : List Measurement} {s : PortScan} (usable : o.UsablePorts)
    (reached : Reaches o replies (opened o source cancelled journal o.portTargets.endpoints)
      history s) : ∀ d ∈ s.ledger.dials, d.target.port ≠ 0 := by
  intro d hd
  have asked : d.target ∈ s.ledger.asked := Multiset.mem_coe.mpr (List.mem_map_of_mem hd)
  obtain ⟨a, ports, named, p, hp, same⟩ := PortTargets.mem_endpoints.mp
    (Multiset.mem_coe.mp (Multiset.mem_of_le (asked_le reached) asked))
  rw [same, Endpoint.port_new]
  exact usable.targets _ named p hp

end Scan

namespace Command

open Scan

/-- With options that a command line and a configuration file amount to, there always are default
ports to choose from, no handshake is made with port 0, and a pipeline asks each candidate at its
own port, else at the port of the options, else at a default port. -/
theorem handshakes_of_options {c : Command} {config : Config} {env : Environment} {o : Options}
    (ok : c.options config env = .ok o) :
    o.defaultPorts ≠ [] ∧
    (∀ {replies : Replies} {source : Source} {cancelled : Bool} {journal : List Event}
        {candidates : List Endpoint} {history : List Measurement} {s : Pipeline},
      Pipeline.Reaches o replies (.opened o source cancelled journal candidates) history s →
      ∀ d ∈ s.ledger.dials,
        d.target.port ≠ 0 ∧ o.SettlesPort d.candidate.port d.target.port) ∧
    ∀ {replies : Replies} {source : Source} {cancelled : Bool} {journal : List Event}
        {history : List Measurement} {s : PortScan},
      PortScan.Reaches o replies (.opened o source cancelled journal o.portTargets.endpoints)
        history s →
      ∀ d ∈ s.ledger.dials, d.target.port ≠ 0 := by
  have usable := usablePorts_of_options ok
  exact ⟨usable.some_, Pipeline.ports_of_reaches usable, PortScan.ports_of_reaches usable⟩

/-- A candidate with port 0 and a flag that asks for port 0: one of the default ports is dialled. -/
theorem handshakes_of_options_zero :
    let candidate := Endpoint.v4 ⟨0x01020304⟩ 0
    let target := Endpoint.v4 ⟨0x01020304⟩ 7156
    let c : Command := {
      ipv6 := .off, port := some 0, endpoints := ["1.2.3.4:0"], noTcp := true, workers := some 1 }
    let env : Environment := ⟨.none, .numeric, []⟩
    let o : Options := {
      useIPv6 := false, endpoints := [candidate], tcpFilter := false, workers := 1, port := 0 }
    let f : Answers := fun _ t => .ok (t, .ofMillis 1)
    c.options {} env = .ok o ∧ ∃ history s,
      Pipeline.Reaches o f.replies (.opened o default false [] [candidate]) history s ∧
      s.ledger.dials = [⟨candidate, target⟩] ∧ target.port ≠ 0 ∧ target.port ∈ o.defaultPorts := by
  intro candidate target c env o f
  have ok : c.options {} env = .ok o := rfl
  let start := Pipeline.opened o default false [] [candidate]
  let run := Pipeline.serveAll o f [] start (List.replicate 10 start.tasks).flatten
  have dialled : run.2.ledger.dials = [⟨candidate, target⟩] := by
    decide +kernel
  have reached : Pipeline.Reaches o f.replies start run.1 run.2 :=
    Pipeline.reaches_of_serveAll _ .start
  obtain ⟨nonzero, settles⟩ := (handshakes_of_options ok).2.1 reached ⟨candidate, target⟩
    (dialled ▸ List.mem_cons_self)
  exact ⟨ok, run.1, run.2, reached, dialled, nonzero, settles.ofDefaults rfl rfl⟩

end Command

end EdgeScan
