import EdgeScan.Text.Quoted

/-!
Key material for handshakes, as users give it. Its description does not show what is secret.
-/

namespace EdgeScan

structure Credentials where
  privateKey : String
  peerPublicKey : String
  presharedKey : Option String
deriving DecidableEq, Repr

namespace Credentials

/-- Key material is complete with a private key and the key of the peer. -/
def ofKeys? (privateKey peerPublicKey presharedKey : Option String) : Option Credentials := do
  return ⟨← privateKey, ← peerPublicKey, presharedKey⟩

def description (c : Credentials) : String :=
  let preshared := match c.presharedKey with
    | none => "None"
    | some _ => "Some(\"<redacted>\")"
  "HandshakeCredentials \x7b private_key: \"<redacted>\", peer_public_key: " ++
    Text.quoted c.peerPublicKey ++ ", preshared_key: " ++ preshared ++ " \x7d"

end Credentials

end EdgeScan
