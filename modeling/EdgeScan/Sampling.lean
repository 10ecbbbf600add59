import EdgeScan.FullCycle
import EdgeScan.Target.Blocks

/-!
Sampling addresses from blocks. Blocks are never enumerated: IPv4 blocks are walked in units of
256 addresses, long IPv6 blocks are sampled in randomly drawn units of that size. Each unit, or
the block itself if it is not larger, is cut into segments, and one acceptable address is drawn
from every segment.
-/

namespace EdgeScan

/-- A contiguous run of addresses to draw from. -/
structure Span where
  start : Address
  size : Nat
  /-- The network and broadcast address to be left out. -/
  bounds : Option (IPv4 × IPv4)
deriving DecidableEq, Repr

structure Segment where
  start : Nat
  width : Nat
deriving DecidableEq, Repr

namespace Span

def unitSize : Nat := 256

def unit (start : Address) : Span := ⟨start, unitSize, none⟩

/-- An IPv4 block as a span; network and broadcast address are left out of blocks of length 30
and shorter. -/
def ofIPv4Block (b : IPv4Block) : Span :=
  ⟨.v4 b.network, b.size, if b.length ≤ 30 then some (b.network, b.broadcast) else none⟩

/-- The start of an IPv6 block as a span of at most one unit. -/
def ofIPv6Block (b : IPv6Block) : Span :=
  ⟨.v6 b.network, Nat.pow 2 (128 - max b.length 120), none⟩

/-- Whether an address may be returned: any IPv6 address, and IPv4 addresses that neither end in 0
or 255 nor are left out as network or broadcast address. -/
def accepts (s : Span) : Address → Bool
  | .v4 ip =>
    if ip.lastOctet = 0 ∨ ip.lastOctet = 255 then false
    else
      match s.bounds with
      | some (network, broadcast) => ip ≠ network ∧ ip ≠ broadcast
      | none => true
  | .v6 _ => true

/-- The address at an offset, if the address space reaches that far. -/
def at? (s : Span) (offset : Nat) : Option Address :=
  match s.start with
  | .v4 ip => if ip.toNat + offset < 0x100000000 then some (.v4 (.ofNat (ip.toNat + offset))) else none
  | .v6 ip => if ip.toNat + offset < Nat.pow 2 128 then some (.v6 (.ofNat (ip.toNat + offset))) else none

/-- The `i`-th of `count` segments of `size` offsets. All have the same width but the last, which
takes the remainder too. -/
def segment (size count i : Nat) : Segment :=
  let width := size / count
  ⟨i * width, (if i + 1 = count then size else i * width + width) - i * width⟩

/-- The segments of `size` offsets for a wanted number of samples: as many as wanted, but no more
than offsets. -/
def segments (size wanted : Nat) : List Segment :=
  let count := min wanted size
  (List.range count).map (segment size count)

def maxAttempts : Nat := 10

def firstAccepted (s : Span) (segment : Segment) (cycle : FullCycle) : Option Address :=
  (cycle.values (min maxAttempts segment.width)).findSome? fun offset =>
    (s.at? (segment.start + offset.toNat)).filter s.accepts

/-- Draws one acceptable address from a segment. No offset is tried twice. -/
def sampleSegment (s : Span) (segment : Segment) : Draw (Option Address) := do
  let cycle ← FullCycle.draw segment.width.toUInt64
  return s.firstAccepted segment cycle

def sample (s : Span) (wanted : Nat) : Draw (List Address) := do
  let found ← (segments s.size wanted).mapM s.sampleSegment
  return found.filterMap id

end Span

namespace IPv4Block

def unitStartsFrom (last current : UInt32) (starts : Array IPv4) : Array IPv4 :=
  let starts := starts.push ⟨current⟩
  if h : current ≤ 0xFFFFFEFF ∧ current + 256 ≤ last then
    unitStartsFrom last (current + 256) starts
  else starts
termination_by last.toNat - current.toNat
decreasing_by
  have h1 := UInt32.le_iff_toNat_le.mp h.1
  have h2 := UInt32.le_iff_toNat_le.mp h.2
  simp only [UInt32.toNat_add, UInt32.reduceToNat] at *
  omega

/-- The first address of every unit in the block, in order. A block smaller than a unit has one:
its first address. -/
def unitStarts (b : IPv4Block) : Array IPv4 :=
  unitStartsFrom b.broadcast.bits b.network.bits #[]

end IPv4Block

namespace IPv6Block

def sampledUnits : Nat := 100

def drawUnit (b : IPv6Block) : Draw IPv6 := do
  let index ← Draw.below 16 (Nat.pow 2 (120 - b.length))
  return ⟨b.network.bits ||| (BitVec.ofNat 128 index <<< 8)⟩

def drawUnits (b : IPv6Block) (count : Nat) : Draw (List IPv6) :=
  (List.replicate count b).mapM drawUnit

end IPv6Block

/-- Draws addresses from a block, `wanted` from each unit. -/
def Block.sample (wanted : Nat) : Block → Draw (List Address)
  | .v4 b =>
    if 24 ≤ b.length then (Span.ofIPv4Block b).sample wanted
    else do
      let samples ← b.unitStarts.toList.mapM fun start => (Span.unit (.v4 start)).sample wanted
      return samples.flatten
  | .v6 b =>
    if 120 ≤ b.length then (Span.ofIPv6Block b).sample wanted
    else do
      let starts ← b.drawUnits IPv6Block.sampledUnits
      let samples ← starts.mapM fun start => (Span.unit (.v6 start)).sample wanted
      return samples.flatten

end EdgeScan
