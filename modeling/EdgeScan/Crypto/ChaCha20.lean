import EdgeScan.Crypto.Bytes

/-!
Authenticated encryption by ChaCha20 and Poly1305, with the nonce of all zeros: every key is used
for one message only.
-/

namespace EdgeScan.ChaCha20

def quarter (v : Array UInt32) (lane : Nat × Nat × Nat × Nat) : Array UInt32 :=
  let (i, j, k, l) := lane
  let a := v.getD i 0 + v.getD j 0
  let d := rotateLeft (v.getD l 0 ^^^ a) 16
  let c := v.getD k 0 + d
  let b := rotateLeft (v.getD j 0 ^^^ c) 12
  let a := a + b
  let d := rotateLeft (d ^^^ a) 8
  let c := c + d
  let b := rotateLeft (b ^^^ c) 7
  (((v.setIfInBounds i a).setIfInBounds j b).setIfInBounds k c).setIfInBounds l d

/-- The positions that two rounds mix: first columns, then diagonals. -/
def lanes : List (Nat × Nat × Nat × Nat) :=
  [(0, 4, 8, 12), (1, 5, 9, 13), (2, 6, 10, 14), (3, 7, 11, 15),
   (0, 5, 10, 15), (1, 6, 11, 12), (2, 7, 8, 13), (3, 4, 9, 14)]

def doubleRounds : Nat → Array UInt32 → Array UInt32
  | 0, v => v
  | n + 1, v => doubleRounds n (lanes.foldl quarter v)

def block (key : Bytes 32) (counter : UInt32) : List UInt8 :=
  let state := #[0x61707865, 0x3320646E, 0x79622D32, 0x6B206574] ++ littleEndianWords key.toList ++
    #[counter, 0, 0, 0]
  let mixed := doubleRounds 10 state
  wordBytes ((List.range 16).map fun i => state.getD i 0 + mixed.getD i 0)

/-- The text with the key stream from block 1 on added to it. Doing this twice changes nothing. -/
def crypt (key : Bytes 32) (text : List UInt8) : List UInt8 :=
  ((chunks 64 text).zipIdx.map fun (part, i) =>
    List.zipWith (· ^^^ ·) part (block key (i + 1).toUInt32)).flatten

end EdgeScan.ChaCha20

namespace EdgeScan.Poly1305

def prime : Nat := Nat.pow 2 130 - 5

/-- The authenticator of a message under a one-time key. -/
def tag (key : List UInt8) (message : List UInt8) : Bytes 16 :=
  let r := littleEndian (key.take 16) &&& 0x0ffffffc0ffffffc0ffffffc0fffffff
  let s := littleEndian ((key.drop 16).take 16)
  let value := (chunks 16 message).foldl
    (fun sum part => (sum + littleEndian (part ++ [1])) * r % prime) 0
  .ofList 16 (toLittleEndian 16 (value + s))

end EdgeScan.Poly1305

namespace EdgeScan.ChaCha20Poly1305

def padding (text : List UInt8) : List UInt8 :=
  List.replicate ((16 - text.length % 16) % 16) 0

def tag (key : Bytes 32) (ciphertext associated : List UInt8) : Bytes 16 :=
  Poly1305.tag (ChaCha20.block key 0)
    (associated ++ padding associated ++ ciphertext ++ padding ciphertext ++
      toLittleEndian 8 associated.length ++ toLittleEndian 8 ciphertext.length)

def encrypt (key : Bytes 32) (text associated : List UInt8) : List UInt8 :=
  let ciphertext := ChaCha20.crypt key text
  ciphertext ++ (tag key ciphertext associated).toList

/-- Decrypts what `encrypt` gave; nothing if the tag is wrong. -/
def decrypt? (key : Bytes 32) (sealed associated : List UInt8) : Option (List UInt8) :=
  if sealed.length < 16 then none
  else
    let ciphertext := sealed.take (sealed.length - 16)
    if (tag key ciphertext associated).toList = sealed.drop (sealed.length - 16) then
      some (ChaCha20.crypt key ciphertext)
    else none

end EdgeScan.ChaCha20Poly1305
