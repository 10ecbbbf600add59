import EdgeScan.Handshake.Initiation

/-!
The responder of a handshake: it checks an initiation, learns from it who sent it and when, and
answers it.
-/

namespace EdgeScan.Handshake

def responseLength : Nat := 92

structure Responder where
  secret : Bytes 32
  publicKey : Bytes 32
  preshared : Bytes 32
deriving DecidableEq

/-- What a responder learns from an initiation, and how it answers. -/
structure Answer where
  initiator : Bytes 32
  timestamp : List UInt8
  response : List UInt8
deriving DecidableEq

namespace Responder

/-- The responder that owns a secret. Without a preshared key zeros take its place. -/
def new (p : Primitives) (secret : Bytes 32) (preshared : Option (Bytes 32)) : Responder :=
  ⟨secret, p.publicKey secret, preshared.getD (.zero 32)⟩

def decrypt (p : Primitives) (key : Bytes 32) (text associated : List UInt8) :
    Except ProbeError (List UInt8) :=
  match p.decrypt? key text associated with
  | some opened => .ok opened
  | none => .error (.handshake "response failed authentication")

def respond (p : Primitives) (r : Responder) (ephemeral : Bytes 32) (senderIndex : UInt32)
    (packet : List UInt8) : Except ProbeError Answer := do
  if packet.length ≠ initiationLength ∨ packet.getD 0 0 ≠ initiationType then
    throw (.malformedReply "not an initiation")
  if (p.code r.publicKey (slice packet 0 116)).toList ≠ slice packet 116 132 then
    throw (.handshake "bad mac1")
  let theirEphemeral := Bytes.ofList 32 (slice packet 8 40)
  let t := p.start r.publicKey
  let t := p.absorb (p.mix t theirEphemeral) theirEphemeral.toList
  let (t, key) := p.mixKey t (p.shared r.secret theirEphemeral)
  let initiator ← decrypt p key (slice packet 40 88) t.hash.toList
  let t := p.absorb t (slice packet 40 88)
  let initiator := Bytes.ofList 32 initiator
  let (t, key) := p.mixKey t (p.shared r.secret initiator)
  let timestamp ← decrypt p key (slice packet 88 116) t.hash.toList
  let t := p.absorb t (slice packet 88 116)
  let ephemeralPublic := p.publicKey ephemeral
  let t := p.absorb (p.mix t ephemeralPublic) ephemeralPublic.toList
  let t := p.mix t (p.shared ephemeral theirEphemeral)
  let t := p.mix t (p.shared ephemeral initiator)
  let (t, key) := p.mixPreshared t r.preshared
  let sealedNothing := p.encrypt key [] t.hash.toList
  let body := [responseType, 0, 0, 0] ++ toLittleEndian 4 senderIndex.toNat ++
    slice packet 4 8 ++ ephemeralPublic.toList ++ sealedNothing
  return ⟨initiator, timestamp, body ++ (p.code initiator body).toList ++ List.replicate 16 0⟩

end Responder

end EdgeScan.Handshake
