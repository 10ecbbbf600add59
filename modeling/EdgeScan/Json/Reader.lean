import EdgeScan.Json.Fault

/-!
Reading a JSON document from its bytes. A reader takes a value off the front of what is left of
the document and moves on behind it, or ends with a fault. The brackets and commas around items
and members are read here; values are read in the modules that import this one.
-/

namespace EdgeScan

/-- What is left of a document, and the position where it starts. -/
structure Cursor where
  rest : List UInt8
  position : Position := {}
deriving Repr

namespace Cursor

def advance (c : Cursor) (n : Nat) : Cursor :=
  ⟨c.rest.drop n, (c.rest.take n).foldl Position.past c.position⟩

def skipWhile (p : UInt8 → Bool) (c : Cursor) : Cursor :=
  c.advance (c.rest.takeWhile p).length

@[simp] theorem rest_advance (c : Cursor) (n : Nat) : (c.advance n).rest = c.rest.drop n := rfl

/-- Moving on in two steps is moving on in one. -/
theorem advance_advance (c : Cursor) (m n : Nat) :
    (c.advance m).advance n = c.advance (m + n) := by
  simp [advance, List.take_add]

end Cursor

/-- Reads a value and moves on behind it. -/
abbrev JsonReader := StateT Cursor (Except JsonError)

namespace JsonReader

def code (c : Char) : UInt8 := c.toNat.toUInt8

def isSpace (b : UInt8) : Bool :=
  b == code ' ' || b == code '\n' || b == code '\t' || b == code '\r'

def isDigit (b : UInt8) : Bool := code '0' ≤ b && b ≤ code '9'

def peek : JsonReader (Option UInt8) := return (← get).rest.head?

def skip (n : Nat) : JsonReader Unit := modify (·.advance n)

def next : JsonReader (Option UInt8) := do
  let b ← peek
  skip 1
  return b

/-- Whether the next byte is the given one. It is passed only if it is. -/
def passes (c : Char) : JsonReader Bool := do
  if (← peek) == some (code c) then
    skip 1
    return true
  else return false

/-- Passes white space and gives the byte behind it, which is not passed. -/
def token : JsonReader (Option UInt8) := do
  modify (·.skipWhile isSpace)
  peek

def fail {α : Type} (fault : JsonFault) : JsonReader α := do
  throw ⟨fault, (← get).position⟩

/-- Ends with a fault at the next byte, or at the end of the document. -/
def failAhead {α : Type} (fault : JsonFault) : JsonReader α := do
  throw ⟨fault, ((← get).advance 1).position⟩

def valueToken : JsonReader UInt8 := do
  match ← token with
  | some b => return b
  | none => failAhead (.endsIn .value)

def word (letters : List Char) : JsonReader Unit :=
  letters.forM fun c => do
    match ← next with
    | none => fail (.endsIn .value)
    | some b => if b = code c then return () else fail .expectedWord

/-- Whether there is another item in an array; `first` says that none was read before. -/
def hasItem (first : Bool) : JsonReader Bool := do
  match ← token with
  | none => failAhead (.endsIn .list)
  | some b =>
    if b = code ']' then return false
    else if first then return true
    else if b = code ',' then
      skip 1
      match ← token with
      | none => failAhead (.endsIn .value)
      | some b => if b = code ']' then failAhead .trailingComma else return true
    else failAhead .expectedListEnd

def endArray : JsonReader Unit := do
  match ← token with
  | none => failAhead (.endsIn .list)
  | some b =>
    if b = code ']' then skip 1
    else if b = code ',' then
      skip 1
      if (← token) == some (code ']') then failAhead .trailingComma else failAhead .trailingText
    else failAhead .trailingText

def hasMember (first : Bool) : JsonReader Bool := do
  match ← token with
  | none => failAhead (.endsIn .object)
  | some b =>
    if b = code '\x7d' then return false
    else if first then
      if b = code '"' then return true else failAhead .keyNotString
    else if b = code ',' then
      skip 1
      match ← token with
      | none => failAhead (.endsIn .value)
      | some b =>
        if b = code '"' then return true
        else if b = code '\x7d' then failAhead .trailingComma
        else failAhead .keyNotString
    else failAhead .expectedObjectEnd

def endObject : JsonReader Unit := do
  match ← token with
  | none => failAhead (.endsIn .object)
  | some b =>
    if b = code '\x7d' then skip 1
    else if b = code ',' then failAhead .trailingComma
    else failAhead .trailingText

def colon : JsonReader Unit := do
  match ← token with
  | none => failAhead (.endsIn .object)
  | some b => if b = code ':' then skip 1 else failAhead .expectedColon

/-- Reads the items of an array, at most `fuel` of them, behind those read before. -/
def itemsFrom {α : Type} (item : JsonReader α) : Nat → Bool → JsonReader (List α)
  | 0, _ => return []
  | fuel + 1, first => do
    if ← hasItem first then
      let a ← item
      return a :: (← itemsFrom item fuel false)
    else return []

/-- Reads the items of an array, whose opening bracket has been passed, and its end. An item has at
least one byte. -/
def items {α : Type} (item : JsonReader α) : JsonReader (List α) := do
  let all ← itemsFrom item ((← get).rest.length + 1) true
  endArray
  return all

/-- Reads the members of an object, at most `fuel` of them, each into the state left by those read
before it. -/
def membersFrom {σ : Type} (member : σ → JsonReader σ) : Nat → Bool → σ → JsonReader σ
  | 0, _, state => return state
  | fuel + 1, first, state => do
    if ← hasMember first then membersFrom member fuel false (← member state) else return state

def members {σ : Type} (member : σ → JsonReader σ) (start : σ) : JsonReader σ := do
  let state ← membersFrom member ((← get).rest.length + 1) true start
  endObject
  return state

def document {α : Type} (value : JsonReader α) (s : String) : Except JsonError α :=
  let reader : JsonReader α := do
    let a ← value
    match ← token with
    | none => return a
    | some _ => failAhead .trailingText
  reader.run' { rest := s.toUTF8.toList }

end JsonReader

end EdgeScan
