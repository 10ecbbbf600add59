import EdgeScan.Command.Arguments
import EdgeScan.Command.Help
import EdgeScan.Command.Options
import EdgeScan.FileTree
import EdgeScan.Report
import EdgeScan.Scan.Scanner

/-!
The program as a whole: from a command line to what is printed, and to the file of results that is
to be written. Looking at the world and changing it is left to the caller.
-/

namespace EdgeScan.Program

/-- What the program has to say, and the file it wants written. -/
structure Output where
  code : Nat := 0
  stdout : String := ""
  stderr : String := ""
  /-- The path and the text of the results file. -/
  results : Option (String × String) := none
deriving DecidableEq, Repr

def Output.failed (stdout : String) (f : Failure) : Output where
  code := 1
  stdout := stdout
  stderr := "Error: " ++ f.report ++ "\n"

/-- The output on a command line that does not lead to a scan. -/
def Output.refused : Refusal → Output
  | .help => { stdout := Help.text }
  | .version => { stdout := Help.version }
  | .usage e => { code := 2, stderr := Help.report e }

def overview (o : Options) (output : Option String) : String :=
  let targets :=
    if o.isPortScan then s!"  mode         : port scan ({o.portTargets.length} hosts)\n"
    else
      s!"  ranges       : {o.blocks.length}\n  endpoints    : {o.endpoints.length}\n" ++
        s!"  filters      : icmp={o.icmpFilter} tcp={o.tcpFilter}\n"
  Help.program ++ " configuration:\n" ++
    s!"  ipv4 / ipv6  : {o.useIPv4} / {o.useIPv6}\n" ++ targets ++
    s!"  concurrency  : {o.workers}\n" ++
    "  output       : " ++ output.getD "<none>" ++ "\n"

def Output.finished (overview : String) (output : Option String) (s : Summary) : Output :=
  let printed := overview ++ s.table
  match output with
  | none => { stdout := printed }
  | some path =>
    match s.tree? with
    | some t => { stdout := printed, results := some (path, t.pretty) }
    | none =>
      { stdout := printed
        stderr := "Failed to write JSON to " ++ path ++ ": a time cannot be written\n" }

def options (c : Command) (env : Environment) : Except SetupError Options := do
  let config ← match c.config with
    | none => .ok {}
    | some path => Config.load env.files path
  c.options config env

def scan (c : Command) (env : Environment) (probes : Scan.Probes) (source : Source) : Output :=
  match options c env with
  | .error e => .failed "" e.failure
  | .ok o =>
    let printed := overview o c.output
    let scanner : Scan.Scanner := { options := o }
    match scanner.runWithKeys probes {} source with
    | .error e => .failed printed (.of e.message)
    | .ok (r, _) => .finished printed c.output r.summary

def run (arguments : List String) (env : Environment) (probes : Scan.Probes) (source : Source) :
    Output :=
  match Command.parse arguments with
  | .error refusal => .refused refusal
  | .ok c => scan c env probes source

def Output.reported (o : Output) (written : Except WriteError Unit) : Output :=
  match o.results with
  | none => o
  | some (path, _) =>
    let failed := fun reason =>
      { o with stderr := o.stderr ++ "Failed to write JSON to " ++ path ++ ": " ++ reason ++ "\n" }
    match written with
    | .ok () => { o with stdout := o.stdout ++ "Wrote JSON results to " ++ path ++ "\n" }
    | .error .cannotCreate => failed ("failed to create " ++ path)
    | .error (.refused reason) => failed reason

/-- Runs the program on a tree of files, which it leaves with its results. -/
def runOn (tree : FileTree) (arguments : List String) (resolver : Resolver)
    (localAddresses : List Address) (probes : Scan.Probes) (source : Source) : Output × FileTree :=
  let o := run arguments ⟨tree.files, resolver, localAddresses⟩ probes source
  match o.results with
  | none => (o, tree)
  | some (path, text) =>
    match tree.write path text.toUTF8 with
    | .error e => (o.reported (.error e), tree)
    | .ok tree => (o.reported (.ok ()), tree)

/-- The paths of the files that a command line makes the program read. -/
def filesRead (arguments : List String) : List String :=
  match Command.parse arguments with
  | .error _ => []
  | .ok c => c.config.toList ++ c.ports.toList

end EdgeScan.Program
