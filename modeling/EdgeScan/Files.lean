/-!
The files that a program may read, as a function from paths to what is there. A text file holds
UTF-8.
-/

namespace EdgeScan

inductive FileError
  | missing
  | isDirectory
  | notDirectory
  | nameTooLong
  | notText
  | other (reason : String)
deriving DecidableEq, Repr

def FileError.message : FileError → String
  | missing => "No such file or directory (os error 2)"
  | isDirectory => "Is a directory (os error 21)"
  | notDirectory => "Not a directory (os error 20)"
  | nameTooLong => "File name too long (os error 36)"
  | notText => "stream did not contain valid UTF-8"
  | other reason => reason

inductive FileEntry
  | directory
  /-- A file with its contents, or with the reason why they cannot be read. -/
  | file (contents : Except FileError ByteArray)
  /-- A device that has nothing to read. It keeps nothing of what is written to it, or refuses it
  for a reason. -/
  | device (refusal : Option String)

def FileEntry.read : FileEntry → Except FileError ByteArray
  | directory => .error .isDirectory
  | file contents => contents
  | device _ => .ok .empty

/-- What each path leads to, or the reason why it leads nowhere. -/
structure Files where
  find : String → Except FileError FileEntry

namespace Files

def none : Files := ⟨fun _ => .error .missing⟩

/-- Whether there is a file at a path, be it readable or not. -/
def isFile (files : Files) (path : String) : Bool :=
  match files.find path with
  | .ok (.file _) => true
  | _ => false

def text (files : Files) (path : String) : Except FileError String := do
  let entry ← files.find path
  let bytes ← entry.read
  match String.fromUTF8? bytes with
  | some s => .ok s
  | .none => .error .notText

end Files

end EdgeScan
