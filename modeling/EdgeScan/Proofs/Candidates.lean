import EdgeScan.Candidates
import EdgeScan.Proofs.Distinct
import EdgeScan.Proofs.Sampling.Exact

/-!
The candidates of a scan. They are the addresses sampled from the blocks of enabled families and the
explicit endpoints, each once; whether there are any does not depend on what is drawn. This holds for
every source, so also for those on which all loops end.
-/
namespace EdgeScan

open scoped List

namespace Options

/-- The blocks of enabled families. -/
def ranges (o : Options) : List Block := o.blocks.filter fun b => o.families.allows b.address

/-- The candidates of a scan with some options, or why there are none. -/
def generate (o : Options) : Draw (Except ScanError (List Endpoint) × List Event) := do
  (← CandidatePlan.draw o).generate

end Options

/-- The candidates from the samples of some blocks: each address once, without a port. -/
def sampledEndpoints (drawn : List (Block × List Address)) : List Endpoint :=
  ((drawn.flatMap Prod.snd).map (Endpoint.new · 0)).eraseDups

namespace CandidatePlan

variable {plan : CandidatePlan}

end CandidatePlan

namespace Options

variable {o : Options}

/-- Samples of the blocks of enabled families, in some order. -/
structure Samples (o : Options) (drawn : List (Block × List Address)) : Prop where
  blocks : drawn.map Prod.fst ~ o.ranges.map Block.normalize
  isSample : ∀ p ∈ drawn, p.1.IsSample p.2

/-- The candidates from some samples and the explicit endpoints. -/
def candidatesOf (o : Options) (drawn : List (Block × List Address)) : List Endpoint :=
  sampledEndpoints drawn ++ (o.endpoints.removeAll (sampledEndpoints drawn)).eraseDups

/-- What comes of generating candidates. -/
inductive Outcome (o : Options) : Except ScanError (List Endpoint) → Prop
  | noCandidates (ranges : o.ranges = []) (endpoints : o.endpoints = []) :
      Outcome o (.error .noCandidates)
  | nothingGenerated (ranges : o.ranges ≠ []) (endpoints : o.endpoints = [])
      (barren : ∀ b ∈ o.ranges, b.isBarren = true) : Outcome o (.error .nothingGenerated)
  | ok {drawn : List (Block × List Address)} (samples : o.Samples drawn)
      (some_ : o.candidatesOf drawn ≠ []) : Outcome o (.ok (o.candidatesOf drawn))

/-- Generating candidates settles on a source only if each of its loops does. -/
theorem persists_generate (o : Options) : Draw.Persists o.generate := by
  refine ((Draw.persists_shuffle _).bind fun blocks => Draw.persists_pure _).bind fun plan => ?_
  unfold CandidatePlan.generate
  split
  · exact Draw.persists_pure _
  · refine ((Draw.persists_mapM (fun b => ?_) _).bind fun samples => Draw.persists_pure _).bind
      fun found => ?_
    · exact (b.persists_sample _).bind fun l => Draw.persists_pure _
    · dsimp only
      split <;> exact Draw.persists_pure _

end Options

end EdgeScan
