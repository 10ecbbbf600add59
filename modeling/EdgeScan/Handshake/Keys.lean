import EdgeScan.Crypto.Base64
import EdgeScan.Handshake.Transcript
import EdgeScan.Options.Basic
import EdgeScan.Text.Blank

/-!
The keys of one handshake identity, and reading them from base64 credentials.
-/

namespace EdgeScan.Handshake

open Text

structure Keys where
  secret : Bytes 32
  publicKey : Bytes 32
  peerPublicKey : Bytes 32
  preshared : Bytes 32
deriving DecidableEq

namespace Keys

/-- The keys of the owner of a secret. Without a preshared key zeros take its place. -/
def new (p : Primitives) (secret peerPublicKey : Bytes 32) (preshared : Option (Bytes 32)) : Keys :=
  ⟨secret, p.publicKey secret, peerPublicKey, preshared.getD (.zero 32)⟩

def decode (name text : String) : Except ScanError (Bytes 32) :=
  match Base64.decode (String.ofList (trim text.toList)).toUTF8.toList with
  | .error e => .error (.credentials (name ++ ": " ++ e.message))
  | .ok bytes =>
    match Bytes.ofList? 32 bytes with
    | some key => .ok key
    | none => .error (.credentials s!"{name}: expected 32 bytes, got {bytes.length}")

/-- Reads the preshared key; a blank one means none. -/
def decodePreshared : Option String → Except ScanError (Option (Bytes 32))
  | none => .ok none
  | some text =>
    if (trim text.toList).isEmpty then .ok none else some <$> decode "preshared key" text

def ofCredentials (p : Primitives) (c : Credentials) : Except ScanError Keys := do
  let preshared ← decodePreshared c.presharedKey
  let secret ← decode "private key" c.privateKey
  let peerPublicKey ← decode "peer public key" c.peerPublicKey
  return new p secret peerPublicKey preshared

def ofOptions (p : Primitives) (o : Options) : Except ScanError Keys :=
  match o.credentials with
  | none => .error (.credentials "no handshake credentials configured")
  | some c => ofCredentials p c

end Keys

end EdgeScan.Handshake
