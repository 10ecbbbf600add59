import EdgeScan.Handshake.Keys
import EdgeScan.Random.Source

/-!
The initiator of a handshake: it builds an initiation packet, and authenticates the response to
it. No keys for later traffic are derived.
-/

namespace EdgeScan.Handshake

def initiationType : UInt8 := 1

def responseType : UInt8 := 2

def initiationLength : Nat := 148

/-- The number of bytes of a response that are needed to authenticate it: type, indices, ephemeral
key and an empty sealed text. -/
def responseNeeded : Nat := 60

/-- A sent initiation, and what is needed to check the response to it. -/
structure Initiation where
  packet : List UInt8
  senderIndex : UInt32
  ephemeral : Bytes 32
  transcript : Transcript
deriving DecidableEq

def slice (packet : List UInt8) (start stop : Nat) : List UInt8 :=
  (packet.drop start).take (stop - start)

namespace Initiation

def new (p : Primitives) (keys : Keys) (ephemeral : Bytes 32) (senderIndex : UInt32)
    (timestamp : Bytes 12) : Initiation :=
  let ephemeralPublic := p.publicKey ephemeral
  let t := p.start keys.peerPublicKey
  let t := p.absorb (p.mix t ephemeralPublic) ephemeralPublic.toList
  let (t, key) := p.mixKey t (p.shared ephemeral keys.peerPublicKey)
  let sealedStatic := p.encrypt key keys.publicKey.toList t.hash.toList
  let t := p.absorb t sealedStatic
  let (t, key) := p.mixKey t (p.shared keys.secret keys.peerPublicKey)
  let sealedTimestamp := p.encrypt key timestamp.toList t.hash.toList
  let t := p.absorb t sealedTimestamp
  let body := [initiationType, 0, 0, 0] ++ toLittleEndian 4 senderIndex.toNat ++
    ephemeralPublic.toList ++ sealedStatic ++ sealedTimestamp
  let packet := body ++ (p.code keys.peerPublicKey body).toList ++ List.replicate 16 0
  ⟨packet, senderIndex, ephemeral, t⟩

def draw (p : Primitives) (keys : Keys) (senderIndex : UInt32) (timestamp : Bytes 12) :
    Draw Initiation := do
  let ephemeral ← Source.bytes 32
  return new p keys (.ofList 32 ephemeral) senderIndex timestamp

/-- Authenticates a response, and gives the index that the responder chose. -/
def consume (p : Primitives) (init : Initiation) (keys : Keys) (response : List UInt8) :
    Except ProbeError UInt32 :=
  if response.length < responseNeeded then
    .error (.malformedReply s!"handshake response too short: {response.length} bytes")
  else if response.getD 0 0 ≠ responseType then
    .error (.malformedReply s!"unexpected message type {(response.getD 0 0).toNat}")
  else if littleEndian (slice response 8 12) ≠ init.senderIndex.toNat then
    .error (.malformedReply "receiver index mismatch")
  else
    let ephemeral := Bytes.ofList 32 (slice response 12 44)
    let t := p.absorb (p.mix init.transcript ephemeral) ephemeral.toList
    let t := p.mix t (p.shared init.ephemeral ephemeral)
    let t := p.mix t (p.shared keys.secret ephemeral)
    let (t, key) := p.mixPreshared t keys.preshared
    match p.decrypt? key (slice response 44 60) t.hash.toList with
    | none => .error (.handshake "response failed authentication")
    | some _ => .ok (littleEndian (slice response 4 8)).toUInt32

end Initiation

end EdgeScan.Handshake
