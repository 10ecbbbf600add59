import EdgeScan.Crypto.Bytes

/-!
Diffie–Hellman on Curve25519. Points are given by their first coordinate, as a number modulo the
prime `2^255 - 19`.
-/

namespace EdgeScan.X25519

def prime : Nat := Nat.pow 2 255 - 19

/-- The power of a number modulo the prime, by repeated squaring over `bits` bits. -/
def power (base exponent : Nat) : Nat → Nat
  | 0 => 1
  | bits + 1 =>
    let half := power base (exponent / 2) bits
    let square := half * half % prime
    if exponent % 2 = 1 then square * base % prime else square

/-- The inverse of a number modulo the prime; 0 for 0. -/
def inverse (x : Nat) : Nat := power x (prime - 2) 255

/-- Two multiples of a point, the second one more than the first, in projective form. -/
structure Ladder where
  x2 : Nat
  z2 : Nat
  x3 : Nat
  z3 : Nat

def minus (a b : Nat) : Nat := (a + prime - b % prime) % prime

/-- Doubles the first multiple and adds both, for the point with first coordinate `x1`. -/
def Ladder.double (x1 : Nat) (l : Ladder) : Ladder :=
  let a := (l.x2 + l.z2) % prime
  let aa := a * a % prime
  let b := minus l.x2 l.z2
  let bb := b * b % prime
  let e := minus aa bb
  let da := minus l.x3 l.z3 * a % prime
  let cb := (l.x3 + l.z3) * b % prime
  let sum := (da + cb) % prime
  let difference := minus da cb
  ⟨aa * bb % prime, e * ((aa + 121665 * e) % prime) % prime,
    sum * sum % prime, x1 * (difference * difference % prime) % prime⟩

def Ladder.swap (l : Ladder) : Ladder := ⟨l.x3, l.z3, l.x2, l.z2⟩

def Ladder.step (x1 : Nat) (bit : Bool) (l : Ladder) : Ladder :=
  if bit then (l.swap.double x1).swap else l.double x1

/-- The ladder after the lowest `bits` bits of a scalar, the highest of them first. -/
def climb (x1 scalar : Nat) : Nat → Ladder → Ladder
  | 0, l => l
  | bits + 1, l => climb x1 scalar bits (l.step x1 (scalar.testBit bits))

def multiply (scalar x1 : Nat) : Nat :=
  let l := climb x1 scalar 255 ⟨1, 0, x1, 1⟩
  l.x2 * inverse l.z2 % prime

/-- The scalar of a secret: a multiple of 8 with bit 254 as its highest. -/
def scalar (secret : Bytes 32) : Nat :=
  let n := littleEndian secret.toList
  n % Nat.pow 2 254 / 8 * 8 + Nat.pow 2 254

/-- The secret shared with the owner of a public key; the highest bit of the key is ignored. -/
def shared (secret publicKey : Bytes 32) : Bytes 32 :=
  let x1 := littleEndian publicKey.toList % Nat.pow 2 255 % prime
  .ofList 32 (toLittleEndian 32 (multiply (scalar secret) x1))

def publicKey (secret : Bytes 32) : Bytes 32 :=
  .ofList 32 (toLittleEndian 32 (multiply (scalar secret) 9))

end EdgeScan.X25519
