import EdgeScan.Text.Printable

/-!
Quoted text for messages. Quotes, backslashes and characters without a shape of their own are
escaped, so that the quoted text shows which characters it holds.
-/

namespace EdgeScan.Text

def hexDigits (n : Nat) : String := String.ofList (Nat.toDigits 16 n)

def escaped (c : Char) : String :=
  match c with
  | '\x00' => "\\0"
  | '\t' => "\\t"
  | '\r' => "\\r"
  | '\n' => "\\n"
  | '"' => "\\\""
  | '\\' => "\\\\"
  | c => if isShaped c then String.singleton c else "\\u\x7b" ++ hexDigits c.toNat ++ "\x7d"

def quoted (s : String) : String :=
  "\"" ++ String.join (s.toList.map escaped) ++ "\""

end EdgeScan.Text
