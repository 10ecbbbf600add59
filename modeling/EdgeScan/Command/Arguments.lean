import EdgeScan.Command.Flag
import EdgeScan.Text.Split

/-!
Reading a command line, argument by argument. A flag with a value takes the argument behind it
unless its own argument gives the value behind `=`. Values are read when the next flag or the end
of the line is reached, so that an unknown argument is reported before a bad value in front of it.
-/

namespace EdgeScan

/-- Why a command line does not lead to a scan. -/
inductive Refusal
  | help
  | version
  | usage (error : UsageError)
deriving DecidableEq, Repr

structure Reading where
  command : Command := {}
  /-- The flags that were given before and may not be given again. -/
  given : List String := []
  /-- A flag that takes a value, and its value if that was passed. -/
  waiting : Option (Flag × Option String) := none
  /-- Whether `--` was passed, behind which there are no flags. -/
  flagsEnded : Bool := false

namespace Reading

def giveOnce (r : Reading) (f : Flag) : Except Refusal Reading :=
  if r.given.contains f.name then .error (.usage (.repeatedFlag f.form))
  else .ok { r with given := f.name :: r.given }

def applyFlag (r : Reading) (f : Flag) : Except Refusal Reading := do
  match f.action with
  | .mark update =>
    let r ← r.giveOnce f
    return { r with command := update r.command }
  | .take .. | .collect .. => return { r with waiting := some (f, none) }
  | .showHelp => throw .help
  | .showVersion => throw .version

def applyValue (r : Reading) (f : Flag) (value : String) : Except Refusal Reading := do
  match f.action with
  | .take _ read =>
    let r ← r.giveOnce f
    match read value with
    | .ok update => return { r with command := update r.command }
    | .error e => throw (.usage (.badValue f.form value e))
  | .collect _ update => return { r with command := update value r.command }
  | .mark _ | .showHelp | .showVersion => throw (.usage (.unwantedValue f.form value))

def settle (r : Reading) : Except Refusal Reading :=
  match r.waiting with
  | none => .ok r
  | some (f, none) => .error (.usage (.missingValue f.form))
  | some (f, some value) => applyValue { r with waiting := none } f value

/-- Passes a flag, with a value in the same argument if there is one. -/
def flag (r : Reading) (f : Flag) (value : Option String) : Except Refusal Reading :=
  match value with
  | none => return ← (← r.settle).applyFlag f
  | some value =>
    if f.placeholder?.isNone then .error (.usage (.unwantedValue f.form value))
    else return ← (← r.settle).applyValue f value

def letters (r : Reading) : List Char → Except Refusal Reading
  | [] => .ok r
  | c :: rest =>
    match Flag.lettered? c with
    | none => .error (.usage (.unknownArgument (String.ofList ['-', c])))
    | some f => do (← r.flag f none).letters rest

/-- Passes an argument that is no flag: the value that a flag waits for. -/
def plain (r : Reading) (argument : String) : Except Refusal Reading :=
  match r.waiting, r.flagsEnded with
  | some (f, none), false => .ok { r with waiting := some (f, some argument) }
  | _, _ => .error (.usage (.unknownArgument argument))

def argument (r : Reading) (a : String) : Except Refusal Reading :=
  if r.flagsEnded then r.plain a
  else
    match a.toList with
    | ['-', '-'] => .ok { r with flagsEnded := true }
    | '-' :: '-' :: text =>
      let (name, value) := match Text.cutFirst? '=' text with
        | some (name, value) => (name, some (String.ofList value))
        | none => (text, none)
      match Flag.named? (String.ofList name) with
      | none => .error (.usage (.unknownArgument (String.ofList ('-' :: '-' :: name))))
      | some f => r.flag f value
    | '-' :: c :: cs => r.letters (c :: cs)
    | _ => r.plain a

end Reading

def Command.parse (arguments : List String) : Except Refusal Command := do
  let r ← arguments.foldlM Reading.argument {}
  return (← r.settle).command

end EdgeScan
