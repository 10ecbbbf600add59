/-!
JSON documents to be written, in one line or over several lines with two blanks of indentation
per level. Members are written in the order in which they stand.
-/

namespace EdgeScan

/-- A JSON document. Numbers are kept as they are to be written. -/
inductive JsonTree
  | number (text : String)
  | string (text : String)
  | array (items : List JsonTree)
  | object (members : List (String × JsonTree))
deriving Repr

namespace JsonTree

def escape (c : Char) : String :=
  match c with
  | '"' => "\\\""
  | '\\' => "\\\\"
  | '\x08' => "\\b"
  | '\t' => "\\t"
  | '\n' => "\\n"
  | '\x0c' => "\\f"
  | '\r' => "\\r"
  | c =>
    if c.toNat < 0x20 then
      "\\u00" ++ String.ofList [Nat.digitChar (c.toNat / 16), Nat.digitChar (c.toNat % 16)]
    else String.ofList [c]

def quote (s : String) : String :=
  "\"" ++ String.join (s.toList.map escape) ++ "\""

mutual

def compact : JsonTree → String
  | number text => text
  | string text => quote text
  | array items => "[" ++ ",".intercalate (compactItems items) ++ "]"
  | object members => "\x7b" ++ ",".intercalate (compactMembers members) ++ "\x7d"

def compactItems : List JsonTree → List String
  | [] => []
  | t :: rest => t.compact :: compactItems rest

def compactMembers : List (String × JsonTree) → List String
  | [] => []
  | (name, t) :: rest => (quote name ++ ":" ++ t.compact) :: compactMembers rest

end

/-- Brackets around parts on lines of their own, or nothing between them if there are no parts. -/
def bracketed (left right : String) (depth : Nat) (parts : List String) : String :=
  if parts.isEmpty then left ++ right
  else
    let margin := "".pushn ' ' (2 * depth)
    let lines := parts.map fun part => margin ++ "  " ++ part
    left ++ "\n" ++ ",\n".intercalate lines ++ "\n" ++ margin ++ right

mutual

def prettyAt (depth : Nat) : JsonTree → String
  | number text => text
  | string text => quote text
  | array items => bracketed "[" "]" depth (prettyItems (depth + 1) items)
  | object members => bracketed "\x7b" "\x7d" depth (prettyMembers (depth + 1) members)

def prettyItems (depth : Nat) : List JsonTree → List String
  | [] => []
  | t :: rest => t.prettyAt depth :: prettyItems depth rest

def prettyMembers (depth : Nat) : List (String × JsonTree) → List String
  | [] => []
  | (name, t) :: rest => (quote name ++ ": " ++ t.prettyAt depth) :: prettyMembers depth rest

end

def pretty (t : JsonTree) : String := t.prettyAt 0

end JsonTree

end EdgeScan
