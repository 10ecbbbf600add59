import EdgeScan.Address.Parser
import EdgeScan.Address.Printer

/-!
Address blocks: all addresses that agree with a given one on its first `length` bits. A block
keeps the address it was written with; `normalize` clears the bits behind its length.
-/

namespace EdgeScan

structure IPv4Block where
  address : IPv4
  length : Nat
  length_le : length ≤ 32 := by decide
deriving DecidableEq, Repr

structure IPv6Block where
  address : IPv6
  length : Nat
  length_le : length ≤ 128 := by decide
deriving DecidableEq, Repr

inductive Block
  | v4 (block : IPv4Block)
  | v6 (block : IPv6Block)
deriving DecidableEq, Repr

namespace IPv4Block

def size (b : IPv4Block) : Nat := Nat.pow 2 (32 - b.length)

def network (b : IPv4Block) : IPv4 :=
  IPv4.ofNat (b.address.toNat / b.size * b.size)

def broadcast (b : IPv4Block) : IPv4 :=
  IPv4.ofNat (b.address.toNat / b.size * b.size + (b.size - 1))

/-- The block written with its first address. -/
def normalize (b : IPv4Block) : IPv4Block :=
  ⟨b.network, b.length, b.length_le⟩

def contains (b : IPv4Block) (ip : IPv4) : Bool :=
  ip.toNat / b.size == b.address.toNat / b.size

def text (b : IPv4Block) : String := s!"{b.address.text}/{b.length}"

end IPv4Block

namespace IPv6Block

def size (b : IPv6Block) : Nat := Nat.pow 2 (128 - b.length)

def network (b : IPv6Block) : IPv6 :=
  IPv6.ofNat (b.address.toNat / b.size * b.size)

def normalize (b : IPv6Block) : IPv6Block :=
  ⟨b.network, b.length, b.length_le⟩

def contains (b : IPv6Block) (ip : IPv6) : Bool :=
  ip.toNat / b.size == b.address.toNat / b.size

def text (b : IPv6Block) : String := s!"{b.address.text}/{b.length}"

end IPv6Block

namespace Block

def address : Block → Address
  | v4 b => .v4 b.address
  | v6 b => .v6 b.address

def normalize : Block → Block
  | v4 b => v4 b.normalize
  | v6 b => v6 b.normalize

def contains : Block → Address → Bool
  | v4 b, .v4 ip => b.contains ip
  | v6 b, .v6 ip => b.contains ip
  | _, _ => false

def text : Block → String
  | v4 b => b.text
  | v6 b => b.text

end Block

def AddressNotation.block : AddressNotation := ⟨true, true⟩

namespace Block

open Text

/-- Reads a slash and a block length of at most `digits` digits that does not exceed `width`. -/
def readLength? (digits width : Nat) (s : List Char) :
    Option ({ n : Nat // n ≤ width } × List Char) := do
  let s ← expect? '/' s
  let (n, s) ← NumberRule.read? ⟨10, some digits, true, width + 1⟩ s
  if h : n ≤ width then some (⟨n, h⟩, s) else none

def readV4? (s : List Char) : Option (Block × List Char) := do
  let (ip, s) ← AddressNotation.block.readIPv4? s
  let (n, s) ← readLength? 2 32 s
  some (v4 ⟨ip, n.1, n.2⟩, s)

def readV6? (s : List Char) : Option (Block × List Char) := do
  let (ip, s) ← AddressNotation.block.readIPv6? s
  let (n, s) ← readLength? 3 128 s
  some (v6 ⟨ip, n.1, n.2⟩, s)

def parse? (s : List Char) : Option Block :=
  match readV4? s with
  | some (b, rest) => if rest.isEmpty then some b else none
  | none => wholeText (readV6? s)

def badTextReason : String := "invalid IP address syntax"

end Block

end EdgeScan
