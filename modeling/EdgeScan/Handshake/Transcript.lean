import EdgeScan.Crypto.Blake2s
import EdgeScan.Crypto.ChaCha20
import EdgeScan.Crypto.X25519

/-!
The cryptographic operations that a WireGuard handshake is made of (the Noise pattern IKpsk2), and
the transcript that both sides keep of it: a chaining key, from which all keys are derived, and a
hash of everything exchanged so far.
-/

namespace EdgeScan.Handshake

/-- The operations that the handshake is built from. -/
structure Primitives where
  hash : List UInt8 → Bytes 32
  hmac : Bytes 32 → List UInt8 → Bytes 32
  mac : Bytes 32 → List UInt8 → Bytes 16
  publicKey : Bytes 32 → Bytes 32
  shared : Bytes 32 → Bytes 32 → Bytes 32
  encrypt : Bytes 32 → List UInt8 → List UInt8 → List UInt8
  decrypt? : Bytes 32 → List UInt8 → List UInt8 → Option (List UInt8)

def Primitives.wireGuard : Primitives where
  hash := Blake2s.hash
  hmac := Blake2s.hmac
  mac := Blake2s.mac
  publicKey := X25519.publicKey
  shared := X25519.shared
  encrypt := ChaCha20Poly1305.encrypt
  decrypt? := ChaCha20Poly1305.decrypt?

def construction : List UInt8 := "Noise_IKpsk2_25519_ChaChaPoly_BLAKE2s".toUTF8.toList

def identifier : List UInt8 := "WireGuard v1 zx2c4 Jason@zx2c4.com".toUTF8.toList

/-- The label under which a receiver's public key makes the key of a packet's first code. -/
def codeLabel : List UInt8 := "mac1----".toUTF8.toList

structure Transcript where
  chainingKey : Bytes 32
  hash : Bytes 32
deriving DecidableEq, Repr

namespace Primitives

variable (p : Primitives)

def derive1 (key : Bytes 32) (input : List UInt8) : Bytes 32 :=
  p.hmac (p.hmac key input) [1]

def derive2 (key : Bytes 32) (input : List UInt8) : Bytes 32 × Bytes 32 :=
  let root := p.hmac key input
  let first := p.hmac root [1]
  (first, p.hmac root (first.toList ++ [2]))

def derive3 (key : Bytes 32) (input : List UInt8) : Bytes 32 × Bytes 32 × Bytes 32 :=
  let root := p.hmac key input
  let first := p.hmac root [1]
  let second := p.hmac root (first.toList ++ [2])
  (first, second, p.hmac root (second.toList ++ [3]))

/-- The code by which a receiver with the given public key recognizes packets meant for it. -/
def code (receiver : Bytes 32) (message : List UInt8) : Bytes 16 :=
  p.mac (p.hash (codeLabel ++ receiver.toList)) message

def start (responder : Bytes 32) : Transcript :=
  let chainingKey := p.hash construction
  let h := p.hash (chainingKey.toList ++ identifier)
  ⟨chainingKey, p.hash (h.toList ++ responder.toList)⟩

def absorb (t : Transcript) (bytes : List UInt8) : Transcript :=
  { t with hash := p.hash (t.hash.toList ++ bytes) }

def mix (t : Transcript) (input : Bytes 32) : Transcript :=
  { t with chainingKey := p.derive1 t.chainingKey input.toList }

def mixKey (t : Transcript) (input : Bytes 32) : Transcript × Bytes 32 :=
  let (chainingKey, key) := p.derive2 t.chainingKey input.toList
  ({ t with chainingKey }, key)

/-- The transcript after the preshared key was mixed in, and a key to encrypt with. -/
def mixPreshared (t : Transcript) (preshared : Bytes 32) : Transcript × Bytes 32 :=
  let (chainingKey, tau, key) := p.derive3 t.chainingKey preshared.toList
  (p.absorb { t with chainingKey } tau.toList, key)

end Primitives

end EdgeScan.Handshake
