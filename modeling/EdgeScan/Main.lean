import EdgeScan.Program

/-!
The command line. It reads the files that the arguments name, runs the program on them, and prints
and writes what comes of it. Without a network every probe fails.
-/

namespace EdgeScan.Program

/-- The number of an error of the system, which may be given with the opposite sign. -/
def errorNumber (code : UInt32) : Nat :=
  if code < 0x80000000 then code.toNat else 0x100000000 - code.toNat

def systemMessage : IO.Error → String
  | .permissionDenied .. => "Permission denied (os error 13)"
  | .resourceExhausted _ code details =>
    if errorNumber code = 28 then "No space left on device (os error 28)" else details
  | e => toString e

def fileError : IO.Error → FileError
  | .noFileOrDirectory .. => .missing
  | .inappropriateType _ code _ => if errorNumber code = 20 then .notDirectory else .isDirectory
  | e@(.invalidArgument _ code _) =>
    if errorNumber code = 36 then .nameTooLong else .other (systemMessage e)
  | e => .other (systemMessage e)

/-- What is at a path that could not be read for the given reason. -/
def unreadable : FileError → Except FileError FileEntry
  | .isDirectory => .ok .directory
  | .notText => .ok (.file (.error .notText))
  | .other reason => .ok (.file (.error (.other reason)))
  | e => .error e

def findFile (path : String) : IO (Except FileError FileEntry) := do
  try return .ok (.file (.ok (← IO.FS.readBinFile path)))
  catch e => return unreadable (fileError e)

def findFiles (paths : List String) : IO Files := do
  let found ← paths.mapM fun path => return (path, ← findFile path)
  return ⟨fun path => (found.lookup path).getD (.error .missing)⟩

def createFile? (path : String) : IO (Option IO.FS.Handle) := do
  try return some (← IO.FS.Handle.mk path .write)
  catch _ => return none

def writeFile (path text : String) : IO (Except WriteError Unit) := do
  match ← createFile? path with
  | none => return .error .cannotCreate
  | some file =>
    try
      file.putStr text
      file.flush
      return .ok ()
    catch e => return .error (.refused (systemMessage e))

/-- A source of random bytes that differs from run to run. -/
def seededSource : IO Source := do
  let bytes ← IO.getRandomBytes 8
  return .new [] (bytes.toList.foldl (fun n b => n * 256 + b.toUInt64) 0)

def execute (arguments : List String) : IO UInt32 := do
  let files ← findFiles (filesRead arguments)
  let o := run arguments ⟨files, .numeric, []⟩ .offline (← seededSource)
  let o ← match o.results with
    | none => pure o
    | some (path, text) => pure (o.reported (← writeFile path text))
  IO.print o.stdout
  IO.eprint o.stderr
  return o.code.toUInt32

end EdgeScan.Program

def main (arguments : List String) : IO UInt32 := EdgeScan.Program.execute arguments
