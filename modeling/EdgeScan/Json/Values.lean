import EdgeScan.Json.Numbers
import EdgeScan.Json.Strings

/-!
Readers for values of given types. A value of another type is a fault that names both. The fields
of a record stand in an object, in any order and each at most once, or in an array in the order of
the record; fields that are missing keep their defaults.
-/

namespace EdgeScan.JsonReader

/-- Ends with the fault that the next value, of whatever type, is not an `expected` one. A number
or string is read first, and may have a fault of its own. -/
def mistyped {α : Type} (expected : String) : JsonReader α := do
  let fault := fun (found : JsonFound) => fail (.wrongType found expected)
  match ← peek with
  | none => failAhead .expectedValue
  | some b =>
    if b = code 'n' then
      word "null".toList
      fault .null
    else if b = code 't' then
      word "true".toList
      fault (.boolean true)
    else if b = code 'f' then
      word "false".toList
      fault (.boolean false)
    else if b = code '-' then
      skip 1
      fault (← number true).found
    else if isDigit b then fault (← number false).found
    else if b = code '"' then
      skip 1
      fault (.string (← string))
    else if b = code '[' then fault .array
    else if b = code '\x7b' then fault .object
    else failAhead .expectedValue

def optional {α : Type} (value : JsonReader α) : JsonReader (Option α) := do
  if (← token) == some (code 'n') then
    word "null".toList
    return none
  else some <$> value

def boolean : JsonReader Bool := do
  let b ← valueToken
  if b = code 't' then
    word "true".toList
    return true
  else if b = code 'f' then
    word "false".toList
    return false
  else mistyped "a boolean"

def natural (greatest : Nat) (expected : String) : JsonReader Nat := do
  let b ← valueToken
  let n ← if b = code '-' then do
      skip 1
      number true
    else if isDigit b then number false
    else mistyped expected
  match n with
  | .natural m =>
    if m ≤ greatest then return m else fail (.wrongValue n.found expected)
  | .negative _ => fail (.wrongValue n.found expected)
  | .float _ => fail (.wrongType n.found expected)

def text (expected : String) : JsonReader String := do
  if (← valueToken) = code '"' then
    skip 1
    string
  else mistyped expected

def list {α : Type} (item : JsonReader α) : JsonReader (List α) := do
  if (← valueToken) = code '[' then
    skip 1
    items item
  else mistyped "a sequence"

def key : JsonReader String := do
  skip 1
  string

def object {σ : Type} (value : JsonReader String) (insert : σ → String → String → σ) (start : σ) :
    JsonReader σ := do
  if (← valueToken) = code '\x7b' then
    skip 1
    members (fun state => do
      let name ← key
      colon
      return insert state name (← value)) start
  else mistyped "a map"

structure FieldReader (σ : Type) where
  name : String
  read : σ → JsonReader σ

/-- Ends with a fault in the name of a field. A closing brace behind the name is passed. -/
def failName {α : Type} (fault : JsonFault) : JsonReader α := do
  let _ ← token
  let _ ← passes '\x7d'
  fail fault

/-- Reads one member of a record, given the names read before. -/
def fieldMember {σ : Type} (fields : List (FieldReader σ)) (state : List String × σ) :
    JsonReader (List String × σ) := do
  let (seen, record) := state
  let name ← key
  match fields.find? (·.name == name) with
  | none => failName (.unknownField name (fields.map FieldReader.name))
  | some field =>
    if seen.contains name then failName (.repeatedField name)
    else
      colon
      return (name :: seen, ← field.read record)

/-- Reads fields from an array as long as there are items. -/
def fieldItems {σ : Type} : List (FieldReader σ) → Bool → σ → JsonReader σ
  | [], _, record => return record
  | field :: rest, first, record => do
    if ← hasItem first then fieldItems rest false (← field.read record) else return record

def record {σ : Type} (expected : String) (fields : List (FieldReader σ)) (start : σ) :
    JsonReader σ := do
  let b ← valueToken
  if b = code '[' then
    skip 1
    let record ← fieldItems fields true start
    endArray
    return record
  else if b = code '\x7b' then
    skip 1
    return (← members (fieldMember fields) ([], start)).2
  else mistyped expected

end EdgeScan.JsonReader
