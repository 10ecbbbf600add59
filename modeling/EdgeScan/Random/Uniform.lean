import EdgeScan.Random.Source

/-!
Draws that are made again until what is drawn passes a test, and by them unbiased draws below a
bound. A number of `n` bytes is scaled to the bound; it is drawn again while it falls into the part of
the number range that would favour some results. The loops have no end on a source that fails the
test for ever: after a limit they are given up, the source records it, and the result is a fixed one.
-/

namespace EdgeScan.Draw

def attempts : Nat := 0x100000

/-- Draws until what is drawn is accepted. After `limit` draws the loop is given up. -/
def retry {α : Type} (accepts : α → Bool) (d : Draw α) (fallback : α) : Nat → Draw α
  | 0 => do
    Source.giveUp
    return fallback
  | limit + 1 => do
    let a ← d
    if accepts a then return a
    else retry accepts d fallback limit

/-- The greatest remainder that an accepted number of `width` bits may leave. -/
def acceptedRemainder (width bound : Nat) : Nat :=
  bound * Nat.pow 2 (width - (bound.log2 + 1)) - 1

/-- Whether a number of `size` bytes can be scaled to the bound without favouring some results. -/
def accepts (size bound v : Nat) : Bool :=
  v * bound % Nat.pow 256 size ≤ acceptedRemainder (8 * size) bound

def acceptedNumber (size bound : Nat) : Draw Nat :=
  retry (accepts size bound) (Source.number size) 0 attempts

/-- Draws numbers of `size` bytes until one is accepted, and scales it to the bound. -/
def below (size bound : Nat) : Draw Nat := do
  let v ← acceptedNumber size bound
  return v * bound / Nat.pow 256 size

def exchange {α : Type} (a : Array α) (i j : Nat) : Array α :=
  a.swapIfInBounds i j

/-- Puts the positions up to `i` of an array into random order, starting from the last. -/
def shuffleTo {α : Type} (a : Array α) : Nat → Draw (Array α)
  | 0 => pure a
  | i + 1 => do
    let j ← below 4 (i + 2)
    shuffleTo (exchange a (i + 1) j) i

def shuffle {α : Type} (l : List α) : Draw (List α) := do
  let a ← shuffleTo l.toArray (l.length - 1)
  return a.toList

/-- A random element of a list, or the fallback if the list is empty. -/
def choose {α : Type} (l : List α) (fallback : α) : Draw α :=
  if l.isEmpty then pure fallback
  else do
    let i ← below 4 l.length
    return l.getD i fallback

end EdgeScan.Draw
