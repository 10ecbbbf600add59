import EdgeScan.Files
import EdgeScan.Text.Split

/-!
A tree of directories with files and devices in them, and the walk along a path. A path is a list
of steps with slashes between them. Each step starts in a directory: an empty step and a dot stay
there, two dots lead to its parent, and any other step leads to what the directory holds under that
name. The root is its own parent.
-/

namespace EdgeScan

/-- A place in a tree: the names on the way to it, the last one first. The root has none. -/
abbrev FilePlace := List String

/-- A tree of files: what is at each place but the root, which is a directory. Relative paths
start in the working directory. -/
structure FileTree where
  entries : List (FilePlace × FileEntry) := []
  workingDirectory : FilePlace := []

inductive WriteError
  | cannotCreate
  | refused (reason : String)
deriving DecidableEq, Repr

namespace FileTree

def nameLimit : Nat := 255

def pathLimit : Nat := 4095

def entryAt? (t : FileTree) (place : FilePlace) : Option FileEntry :=
  if place.isEmpty then some .directory else t.entries.lookup place

/-- Where a step leads from a place. It may lead to a place where there is nothing. -/
def step (t : FileTree) (here : FilePlace) (name : String) : Except FileError FilePlace :=
  match t.entryAt? here with
  | none => .error .missing
  | some .directory =>
    if name = "" ∨ name = "." then .ok here
    else if name = ".." then .ok here.tail
    else if nameLimit < name.utf8ByteSize then .error .nameTooLong
    else .ok (name :: here)
  | some _ => .error .notDirectory

/-- The place that a path leads to. An empty path leads nowhere. -/
def walk (t : FileTree) (path : String) : Except FileError FilePlace :=
  if path.isEmpty then .error .missing
  else if pathLimit < path.utf8ByteSize then .error .nameTooLong
  else
    let start := if path.toList.head? = some '/' then [] else t.workingDirectory
    (Text.pieces '/' path.toList).foldlM (fun here name => t.step here (String.ofList name)) start

def find (t : FileTree) (path : String) : Except FileError FileEntry := do
  let place ← t.walk path
  match t.entryAt? place with
  | some entry => .ok entry
  | none => .error .missing

def files (t : FileTree) : Files := ⟨t.find⟩

def put (t : FileTree) (place : FilePlace) (entry : FileEntry) : FileTree :=
  { t with entries := (place, entry) :: t.entries }

def write (t : FileTree) (path : String) (bytes : ByteArray) : Except WriteError FileTree :=
  match t.walk path with
  | .error _ => .error .cannotCreate
  | .ok place =>
    match t.entryAt? place with
    | some .directory => .error .cannotCreate
    | some (.device (some reason)) => .error (.refused reason)
    | some (.device none) => .ok t
    | some (.file _) | none => .ok (t.put place (.file (.ok bytes)))

/-- What was put at a place below the root is there. -/
theorem entryAt?_put (t : FileTree) {place : FilePlace} (entry : FileEntry) (h : place ≠ []) :
    (t.put place entry).entryAt? place = some entry := by
  simp [entryAt?, put, h]

/-- The other places keep what they hold. -/
theorem entryAt?_put_of_ne (t : FileTree) {place other : FilePlace} (entry : FileEntry)
    (h : other ≠ place) : (t.put place entry).entryAt? other = t.entryAt? other := by
  simp [entryAt?, put, List.lookup_cons, beq_eq_false_iff_ne.2 h]

end FileTree

end EdgeScan
