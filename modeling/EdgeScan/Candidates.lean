import EdgeScan.Distinct
import EdgeScan.Event
import EdgeScan.Options.Basic
import EdgeScan.Sampling

/-!
The candidates of a scan: addresses sampled from the blocks of enabled families, without a port,
followed by the explicit endpoints. No candidate occurs twice.
-/

namespace EdgeScan

/-- The blocks to sample, in the order in which they are sampled, and the endpoints to add. -/
structure CandidatePlan where
  blocks : List Block
  endpoints : List Endpoint
  samplesPerUnit : Nat
deriving DecidableEq, Repr

namespace CandidatePlan

/-- Keeps the blocks of enabled families, writes them with their first address, and puts them into
random order. -/
def draw (o : Options) : Draw CandidatePlan := do
  let blocks := (o.blocks.filter fun b => o.families.allows b.address).map Block.normalize
  let blocks ← Draw.shuffle blocks
  return ⟨blocks, o.endpoints, o.samplesPerUnit⟩

/-- Samples one block after the other, and reports those that gave nothing. -/
def sampleBlocks (plan : CandidatePlan) : Draw (List Address × List Event) := do
  let samples ← plan.blocks.mapM fun b => do
    let found ← b.sample plan.samplesPerUnit
    return (b, found)
  let silent := samples.filterMap fun (b, found) =>
    if found.isEmpty then some (.blockWithoutSamples b.text) else none
  return ((samples.map Prod.snd).flatten, silent)

def generate (plan : CandidatePlan) : Draw (Except ScanError (List Endpoint) × List Event) := do
  if plan.blocks.isEmpty && plan.endpoints.isEmpty then return (.error .noCandidates, [])
  let (sampled, events) ← plan.sampleBlocks
  match distinct (sampled.map (Endpoint.new · 0) ++ plan.endpoints) with
  | [] => return (.error .nothingGenerated, events)
  | candidates => return (.ok candidates, events)

end CandidatePlan

end EdgeScan
