/-!
What can go wrong: in the configuration of a scan and the generation of its candidates
(`ScanError`), and in a single probe (`ProbeError`). Each cause has one wording.
-/

namespace EdgeScan

inductive ScanError
  | invalidOption (name reason : String)
  | noFamilies
  | noCandidates
  | nothingGenerated
  | credentials (reason : String)
  | invalidEndpoint (endpoint reason : String)
deriving DecidableEq, Repr

def ScanError.message : ScanError → String
  | invalidOption name reason => s!"invalid option {name}: {reason}"
  | noFamilies => "both IPv4 and IPv6 are disabled, nothing to scan"
  | noCandidates => "no IP ranges or endpoints configured"
  | nothingGenerated => "no IPs generated from the configured ranges"
  | credentials reason => s!"invalid handshake credentials: {reason}"
  | invalidEndpoint endpoint reason => s!"invalid endpoint {endpoint}: {reason}"

/-- Why a single probe did not produce a measurement. Never fatal to a scan. -/
inductive ProbeError
  | cancelled
  | timeout
  | io (reason : String)
  | malformedReply (reason : String)
  | handshake (reason : String)
deriving DecidableEq, Repr

def ProbeError.message : ProbeError → String
  | cancelled => "probe cancelled"
  | timeout => "timed out"
  | io reason => reason
  | malformedReply reason => s!"malformed reply: {reason}"
  | handshake reason => s!"handshake failed: {reason}"

/-- Cancellation is expected when a scan ends early and is kept out of its journal. -/
def ProbeError.isCancelled (e : ProbeError) : Bool :=
  e == .cancelled

/-- An error text with the contexts it arose in, the outermost first. -/
structure Failure where
  contexts : List String
  cause : String
deriving DecidableEq, Repr

namespace Failure

def of (cause : String) : Failure := ⟨[], cause⟩

def within (context : String) (f : Failure) : Failure := ⟨context :: f.contexts, f.cause⟩

/-- All texts of a failure, the outermost context first and the cause last. -/
def chain (f : Failure) : List String := f.contexts ++ [f.cause]

def message (f : Failure) : String := ": ".intercalate f.chain

def indented (margin text : String) : String :=
  String.ofList (text.toList.flatMap fun c => if c = '\n' then c :: margin.toList else [c])

/-- The report of a failure: its outermost text, then what it was caused by, one text to a line
and numbered if there are several. -/
def report (f : Failure) : String :=
  match f.chain with
  | [] => ""
  | [only] => only
  | [outer, inner] => outer ++ "\n\nCaused by:\n    " ++ indented "    " inner
  | outer :: inner =>
    let rows := inner.zipIdx.map fun (text, i) =>
      let number := toString i
      "".pushn ' ' (5 - number.length) ++ number ++ ": " ++ indented "       " text
    outer ++ "\n\nCaused by:\n" ++ "\n".intercalate rows

end Failure

end EdgeScan
