/-!
A source of random bytes: given bytes come first, then the words of a SplitMix64 generator. Every
finite sequence of bytes is the beginning of some source. A loop that draws until a test is passed
may not end on a source; the source records when such a loop was given up.
-/

namespace EdgeScan

/-- Bytes still to be drawn, the state of the generator that continues them, and whether a loop over
them was given up. -/
structure Source where
  pending : List UInt8
  state : UInt64
  gaveUp : Bool
deriving DecidableEq, Repr, Inhabited

abbrev Draw := StateM Source

namespace Source

/-- The source that gives the bytes `given` and then those of the generator started at `seed`. -/
def new (given : List UInt8) (seed : UInt64) : Source := ⟨given, seed, false⟩

def wordBytes (w : UInt64) : List UInt8 :=
  [w.toUInt8, (w >>> 8).toUInt8, (w >>> 16).toUInt8, (w >>> 24).toUInt8, (w >>> 32).toUInt8,
   (w >>> 40).toUInt8, (w >>> 48).toUInt8, (w >>> 56).toUInt8]

def scramble (state : UInt64) : UInt64 :=
  let z := (state ^^^ (state >>> 30)) * 0xBF58476D1CE4E5B9
  let z := (z ^^^ (z >>> 27)) * 0x94D049BB133111EB
  z ^^^ (z >>> 31)

def byte : Draw UInt8 := fun s =>
  match s.pending with
  | b :: rest => (b, { s with pending := rest })
  | [] =>
    let state := s.state + 0x9E3779B97F4A7C15
    let w := scramble state
    (w.toUInt8, ⟨(wordBytes w).drop 1, state, s.gaveUp⟩)

def bytes : Nat → Draw (List UInt8)
  | 0 => pure []
  | n + 1 => do
    let b ← byte
    let rest ← bytes n
    return b :: rest

def number : Nat → Draw Nat
  | 0 => pure 0
  | n + 1 => do
    let b ← byte
    let rest ← number n
    return b.toNat + 256 * rest

def giveUp : Draw Unit :=
  modify fun s => { s with gaveUp := true }

end Source

end EdgeScan
