/-!
Reading base64 text with its standard alphabet. Padding has to be complete, and bits behind the
last byte have to be zero. Groups of four symbols are read in turn; padding is understood in the
last group only.
-/

namespace EdgeScan.Base64

/-- Why a text is not base64. Offsets count bytes. -/
inductive Error
  | symbol (byte : UInt8) (offset : Nat)
  | lastSymbol (byte : UInt8) (offset : Nat)
  | length (n : Nat)
  | padding
deriving DecidableEq, Repr

def Error.message : Error → String
  | symbol byte offset => s!"Invalid symbol {byte.toNat}, offset {offset}."
  | lastSymbol byte offset => s!"Invalid last symbol {byte.toNat}, offset {offset}."
  | length n => s!"Invalid input length: {n}"
  | padding => "Invalid padding"

def value? (c : UInt8) : Option Nat :=
  let n := c.toNat
  if 65 ≤ n ∧ n ≤ 90 then some (n - 65)
  else if 97 ≤ n ∧ n ≤ 122 then some (n - 97 + 26)
  else if 48 ≤ n ∧ n ≤ 57 then some (n - 48 + 52)
  else if n = 43 then some 62
  else if n = 47 then some 63
  else none

def pad : UInt8 := 61

/-- The values of symbols, or the first byte that is none, counted from `offset`. -/
def values (offset : Nat) : List UInt8 → Except Error (List Nat)
  | [] => .ok []
  | c :: rest =>
    match value? c with
    | none => .error (.symbol c offset)
    | some v => (values (offset + 1) rest).map (v :: ·)

def spelled (vs : List Nat) : Nat := vs.foldl (fun n v => n * 64 + v) 0

def lowBytes : Nat → Nat → List UInt8
  | 0, _ => []
  | n + 1, v => lowBytes n (v / 256) ++ [v.toUInt8]

/-- Reads the symbols in front of the padding of the last group. Padding has to stand behind at
least two symbols, and nothing but padding behind it. -/
def lastSymbols (offset : Nat) (group : List UInt8) : Except Error (List Nat) :=
  let symbols := group.takeWhile (· ≠ pad)
  let rest := group.dropWhile (· ≠ pad)
  match values offset symbols with
  | .error e => .error e
  | .ok vs =>
    if rest ≠ [] ∧ (vs.length < 2 ∨ rest.any (· ≠ pad)) then
      .error (.symbol pad (offset + vs.length))
    else .ok vs

def lastGroup (offset : Nat) (group : List UInt8) : Except Error (List UInt8) :=
  match lastSymbols offset group with
  | .error e => .error e
  | .ok vs =>
    if vs.length < 2 then .error (.length (offset + vs.length))
    else if group.length % 4 ≠ 0 then .error .padding
    else
      let surplus := vs.length * 6 % 8
      if spelled vs % Nat.pow 2 surplus ≠ 0 then
        .error (.lastSymbol (group.getD (vs.length - 1) 0) (offset + vs.length - 1))
      else .ok (lowBytes (vs.length * 6 / 8) (spelled vs / Nat.pow 2 surplus))

def wholeGroups : List Nat → List UInt8
  | a :: b :: c :: d :: rest => lowBytes 3 (spelled [a, b, c, d]) ++ wholeGroups rest
  | _ => []

/-- Reads base64 text. A single byte that is left over behind the last whole group is looked at
first. -/
def decode (text : List UInt8) : Except Error (List UInt8) :=
  let size := text.length
  let stray := if size % 4 = 1 then text.getLast?.filter fun c => c ≠ pad ∧ (value? c).isNone else none
  match stray with
  | some c => .error (.symbol c (size - 1))
  | none =>
    if text.isEmpty then .ok []
    else
      let front := (size - 1) / 4 * 4
      match values 0 (text.take front) with
      | .error e => .error e
      | .ok vs => (lastGroup front (text.drop front)).map (wholeGroups vs ++ ·)

end EdgeScan.Base64
