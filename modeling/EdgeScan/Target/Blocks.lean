import EdgeScan.Address.Block
import EdgeScan.Event
import EdgeScan.Text.Blank

/-!
Address blocks as users write them, and the blocks and ports of the WARP edge, which are scanned
when nothing else is configured.
-/

namespace EdgeScan

open Text

namespace Block

/-- Reads blocks, blanks around them allowed, and skips texts that are no block. -/
def ofTexts (texts : List String) : List Block × List Event :=
  let read := texts.map fun s => (s, parse? (trim s.toList))
  (read.filterMap Prod.snd,
    read.filterMap fun (s, block) =>
      if block.isNone then some (.blockSkipped s badTextReason) else none)

end Block

def warpBlocks : List Block :=
  [.v4 ⟨⟨0xA29FC000⟩, 24, by decide⟩,
   .v4 ⟨⟨0xA29FC300⟩, 24, by decide⟩,
   .v4 ⟨⟨0xBC726000⟩, 24, by decide⟩,
   .v4 ⟨⟨0xBC726100⟩, 24, by decide⟩,
   .v4 ⟨⟨0xBC726200⟩, 24, by decide⟩,
   .v4 ⟨⟨0xBC726300⟩, 24, by decide⟩,
   .v6 ⟨⟨0x2606470000d000000000000000000000⟩, 64, by decide⟩,
   .v6 ⟨⟨0x2606470000d100000000000000000000⟩, 64, by decide⟩]

/-- The UDP ports on which WARP edges answer a handshake initiation. -/
def warpPorts : List UInt16 :=
  [500, 854, 859, 864, 878, 880, 890, 891, 894, 903, 908, 928, 934, 939, 942, 943, 945, 946, 955,
   968, 987, 988, 1002, 1010, 1014, 1018, 1070, 1074, 1180, 1387, 1701, 1843, 2371, 2408, 2506,
   3138, 3476, 3581, 3854, 4177, 4198, 4233, 4500, 5279, 5956, 7103, 7152, 7156, 7281, 7559, 8319,
   8742, 8854, 8886]

end EdgeScan
