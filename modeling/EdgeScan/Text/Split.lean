/-!
Cutting text at a separator: all pieces, the first cut, the last cut, and lines. Pieces lose
nothing but the separators, and a text has one piece more than separators.
-/

namespace EdgeScan.Text

/-- The pieces between the occurrences of `sep`; a text without one is its own only piece. -/
def pieces (sep : Char) : List Char → List (List Char)
  | [] => [[]]
  | c :: rest =>
    if c = sep then [] :: pieces sep rest
    else
      match pieces sep rest with
      | [] => [[c]]
      | p :: ps => (c :: p) :: ps

def cutFirst? (sep : Char) : List Char → Option (List Char × List Char)
  | [] => none
  | c :: rest =>
    if c = sep then some ([], rest)
    else (cutFirst? sep rest).map fun (before, after) => (c :: before, after)

def cutLast? (sep : Char) : List Char → Option (List Char × List Char)
  | [] => none
  | c :: rest =>
    match cutLast? sep rest with
    | some (before, after) => some (c :: before, after)
    | none => if c = sep then some ([], rest) else none

def before (sep : Char) (s : List Char) : List Char :=
  s.takeWhile (· ≠ sep)

/-- A line without the carriage return that stood in front of its line feed. -/
def dropReturn (line : List Char) : List Char :=
  if line.getLast? = some '\r' then line.dropLast else line

/-- The lines of a text. A line ends at a line feed, which goes together with one carriage return
in front of it; what follows the last line feed is a line of its own unless it is empty. -/
def lines (s : List Char) : List (List Char) :=
  let ps := pieces '\n' s
  let last := ps.getLastD []
  ps.dropLast.map dropReturn ++ (if last.isEmpty then [] else [last])

theorem pieces_ne_nil (sep : Char) (s : List Char) : pieces sep s ≠ [] := by
  induction s with
  | nil => simp [pieces]
  | cons c rest ih =>
    by_cases h : c = sep
    · simp [pieces, h]
    · rcases hp : pieces sep rest with _ | ⟨p, ps⟩
      · exact absurd hp ih
      · simp [pieces, h, hp]

end EdgeScan.Text
