import EdgeScan.Address.Basic
import EdgeScan.Error

/-!
ICMP echo packets: building a request, and reading the header of a received packet. Raw IPv4
sockets deliver packets with their IP header, datagram sockets without.
-/

namespace EdgeScan.Icmp

inductive SocketKind
  | raw
  | datagram
deriving DecidableEq, Repr

structure Echo where
  kind : UInt8
  ident : UInt16
  seq : UInt16
deriving DecidableEq, Repr

def headerLength : Nat := 8

def requestType : Address → UInt8
  | .v4 _ => 8
  | .v6 _ => 128

def bigEndian (w : UInt16) : List UInt8 := [(w >>> 8).toUInt8, w.toUInt8]

def word (high low : UInt8) : UInt16 := (high.toUInt16 <<< 8) ||| low.toUInt16

/-- The sum of the words of a packet; a last odd byte is the upper half of a word. -/
def wordSum (sum : UInt32) : List UInt8 → UInt32
  | [] => sum
  | [last] => sum + (last.toUInt32 <<< 8)
  | high :: low :: rest => wordSum (sum + (word high low).toUInt32) rest

/-- Adds what lies above 16 bits to the lower 16 bits until nothing does. -/
def fold (sum : UInt32) : UInt32 :=
  if _h : sum >>> 16 = 0 then sum else fold ((sum &&& (0xffff : UInt32)) + (sum >>> 16))
termination_by sum.toNat
decreasing_by
  have hs := sum.toNat_lt
  have hq : sum.toNat / 65536 ≠ 0 := by
    intro e
    apply ‹¬sum >>> 16 = 0›
    apply UInt32.toNat_inj.mp
    simp [UInt32.toNat_shiftRight, Nat.shiftRight_eq_div_pow, e]
  have low : sum.toNat &&& 65535 = sum.toNat % 65536 :=
    Nat.and_two_pow_sub_one_eq_mod sum.toNat 16
  simp only [UInt32.toNat_add, UInt32.toNat_and, UInt32.toNat_shiftRight, UInt32.reduceToNat,
    Nat.shiftRight_eq_div_pow, Nat.reduceMod, Nat.reducePow, low]
  rw [Nat.mod_eq_of_lt (by omega)]
  omega

/-- The internet checksum: the complement of the sum of all words, carries added back in. -/
def checksum (packet : List UInt8) : UInt16 :=
  ~~~(fold (wordSum 0 packet)).toUInt16

def echoRequest (a : Address) (ident seq : UInt16) : List UInt8 :=
  let front := [requestType a, 0]
  let back := bigEndian ident ++ bigEndian seq
  front ++ bigEndian (checksum (front ++ [0, 0] ++ back)) ++ back

def payload (packet : List UInt8) (a : Address) (socket : SocketKind) : List UInt8 :=
  if a.isIPv4 ∧ socket = .raw then packet.drop ((packet.headD 0 &&& 0x0f).toNat * 4) else packet

def parse (packet : List UInt8) (a : Address) (socket : SocketKind) : Except ProbeError Echo :=
  match payload packet a socket with
  | kind :: _ :: _ :: _ :: i0 :: i1 :: s0 :: s1 :: _ => .ok ⟨kind, word i0 i1, word s0 s1⟩
  | short => .error (.malformedReply s!"icmp packet too short: {short.length} bytes")

end EdgeScan.Icmp
