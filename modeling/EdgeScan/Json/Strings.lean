import EdgeScan.Json.Reader
import EdgeScan.Text.Numeral

/-!
Strings in a JSON document. A character outside the basic plane is escaped as a pair of
surrogates; a surrogate without its partner is refused.
-/

namespace EdgeScan.JsonReader

def isPlain (b : UInt8) : Bool := b ≠ code '"' && b ≠ code '\\' && 0x20 ≤ b

def hexValue? (digits : List UInt8) : Option Nat :=
  digits.foldlM (fun n b => do
    let d ← Text.digit? 16 (Char.ofNat b.toNat)
    some (16 * n + d)) 0

def hexEscape : JsonReader Nat := do
  let digits := (← get).rest.take 4
  skip 4
  if digits.length < 4 then fail (.endsIn .string)
  else
    match hexValue? digits with
    | some n => return n
    | none => fail .invalidEscape

/-- Passes the given character of the second half of a pair. -/
def secondHalf (c : Char) : JsonReader Unit := do
  match ← peek with
  | none => fail (.endsIn .string)
  | some b =>
    skip 1
    if b = code c then return () else fail .halfSurrogatePair

def unicodeEscape : JsonReader Char := do
  let high ← hexEscape
  if 0xDC00 ≤ high ∧ high ≤ 0xDFFF then fail .loneSurrogate
  else if 0xD800 ≤ high ∧ high ≤ 0xDBFF then
    secondHalf '\\'
    secondHalf 'u'
    let low ← hexEscape
    if 0xDC00 ≤ low ∧ low ≤ 0xDFFF then
      return Char.ofNat (0x10000 + (high - 0xD800) * 0x400 + (low - 0xDC00))
    else fail .loneSurrogate
  else return Char.ofNat high

def shortEscapes : List (Char × Char) :=
  [('"', '"'), ('\\', '\\'), ('/', '/'), ('b', '\x08'), ('f', '\x0c'), ('n', '\n'), ('r', '\r'),
    ('t', '\t')]

def escape : JsonReader Char := do
  match ← next with
  | none => fail (.endsIn .string)
  | some b =>
    if b = code 'u' then unicodeEscape
    else
      match shortEscapes.find? fun (letter, _) => b = code letter with
      | some (_, c) => return c
      | none => fail .invalidEscape

/-- Reads the bytes of a string up to its closing quote, with at most `fuel` escapes. -/
def stringBytes : Nat → JsonReader (List UInt8)
  | 0 => return []
  | fuel + 1 => do
    let plain := (← get).rest.takeWhile isPlain
    skip plain.length
    match ← next with
    | none => fail (.endsIn .string)
    | some b =>
      if b = code '"' then return plain
      else if b = code '\\' then
        let c ← escape
        return plain ++ String.utf8EncodeChar c ++ (← stringBytes fuel)
      else fail .controlCharacter

/-- Reads a string whose opening quote has been passed. An escape has at least one byte. -/
def string : JsonReader String := do
  let bytes ← stringBytes ((← get).rest.length + 1)
  return (String.fromUTF8? ⟨bytes.toArray⟩).getD ""

end EdgeScan.JsonReader
