import EdgeScan.Command.Flag

/-!
The texts that describe the command line: its version, its help, and the report on a command line
without a meaning.
-/

namespace EdgeScan.Help

def program : String := "endpoint-scan-rs"

def version : String := program ++ " 0.1.0\n"

def usage : String := "Usage: " ++ program ++ " [OPTIONS]\n"

def entry (f : Flag) : String :=
  let letter := match f.letter with
    | some c => "  -" ++ String.singleton c ++ ", "
    | none => "      "
  letter ++ f.form ++ "\n" ++ "".pushn ' ' 10 ++ f.help ++ "\n"

def text : String :=
  "Find the lowest-latency reachable WireGuard edges in large IP ranges.\n\n" ++ usage ++
    "\nOptions:\n" ++ String.join (Flag.all.map entry)

/-- The report on a command line without a meaning. -/
def report (e : UsageError) : String :=
  "error: " ++ e.summary ++ "\n\n" ++ usage ++ "\nFor more information, try '--help'.\n"

end EdgeScan.Help
