import EdgeScan.Decimal.Shortest
import EdgeScan.Text.Quoted

/-!
What can be wrong with a JSON document that is read for values of given types, and where. A fault
lies in the form of the document, in the values it holds, or in its end coming too early.
-/

namespace EdgeScan

inductive JsonFound
  | null
  | boolean (value : Bool)
  | integer (value : Int)
  | float (value : Float)
  | string (text : String)
  | array
  | object
deriving Repr

inductive JsonPart
  | list
  | object
  | string
  | value
deriving DecidableEq, Repr

inductive JsonFault
  | endsIn (part : JsonPart)
  | expectedColon
  | expectedListEnd
  | expectedObjectEnd
  | expectedWord
  | expectedValue
  | keyNotString
  | trailingComma
  | trailingText
  | invalidNumber
  | numberOutOfRange
  | controlCharacter
  | invalidEscape
  | loneSurrogate
  | halfSurrogatePair
  | wrongType (found : JsonFound) (expected : String)
  | wrongValue (found : JsonFound) (expected : String)
  | badText (reason : String)
  | unknownField (name : String) (known : List String)
  | repeatedField (name : String)
deriving Repr

inductive JsonFault.Kind
  | form
  | value
  | ending
deriving DecidableEq, Repr

/-- Floating-point numbers in messages are written positionally from 10^-5 up to 10^16. -/
def JsonFound.format : Decimal.FloatFormat := ⟨-5, 15⟩

def JsonFound.floatText (x : Float) : String :=
  if x.toBits >>> 63 = 0 then format.text x else "-" ++ format.text x

def JsonFound.description : JsonFound → String
  | null => "null"
  | boolean value => "boolean " ++ "`" ++ toString value ++ "`"
  | integer value => "integer " ++ "`" ++ toString value ++ "`"
  | float value => "floating point " ++ "`" ++ floatText value ++ "`"
  | string text => "string " ++ Text.quoted text
  | array => "sequence"
  | object => "map"

def JsonPart.name : JsonPart → String
  | list => "a list"
  | object => "an object"
  | string => "a string"
  | value => "a value"

namespace JsonFault

def quotedName (name : String) : String := "`" ++ name ++ "`"

def choice : List String → String
  | [] => "nothing"
  | [a] => quotedName a
  | [a, b] => quotedName a ++ " or " ++ quotedName b
  | names => "one of " ++ ", ".intercalate (names.map quotedName)

def message : JsonFault → String
  | endsIn part => "EOF while parsing " ++ part.name
  | expectedColon => "expected `:`"
  | expectedListEnd => "expected `,` or `]`"
  | expectedObjectEnd => "expected `,` or `\x7d`"
  | expectedWord => "expected ident"
  | expectedValue => "expected value"
  | keyNotString => "key must be a string"
  | trailingComma => "trailing comma"
  | trailingText => "trailing characters"
  | invalidNumber => "invalid number"
  | numberOutOfRange => "number out of range"
  | controlCharacter => "control character (\\u0000-\\u001F) found while parsing a string"
  | invalidEscape => "invalid escape"
  | loneSurrogate => "lone leading surrogate in hex escape"
  | halfSurrogatePair => "unexpected end of hex escape"
  | wrongType found expected => "invalid type: " ++ found.description ++ ", expected " ++ expected
  | wrongValue found expected => "invalid value: " ++ found.description ++ ", expected " ++ expected
  | badText reason => reason
  | unknownField name known => "unknown field " ++ quotedName name ++ ", expected " ++ choice known
  | repeatedField name => "duplicate field " ++ quotedName name

def kind : JsonFault → Kind
  | endsIn _ => .ending
  | wrongType .. | wrongValue .. | badText _ | unknownField .. | repeatedField _ => .value
  | _ => .form

end JsonFault

/-- A place in a text: a line, counted from one, and the number of bytes of that line in front of
the place. -/
structure Position where
  line : Nat := 1
  column : Nat := 0
deriving DecidableEq, Repr

def Position.past (p : Position) (b : UInt8) : Position :=
  if b = 10 then ⟨p.line + 1, 0⟩ else ⟨p.line, p.column + 1⟩

/-- A fault and the position where it was noticed. -/
structure JsonError where
  fault : JsonFault
  position : Position
deriving Repr

def JsonError.message (e : JsonError) : String :=
  e.fault.message ++ s!" at line {e.position.line} column {e.position.column}"

end EdgeScan
