import EdgeScan.Error
import EdgeScan.Files
import EdgeScan.Json.Fault
import EdgeScan.PortList

/-!
Why a scan cannot be set up: a file that cannot be read, a configuration or a port list that has
no meaning, or options that a scan cannot run with. Each cause is reported with the contexts it
arose in.
-/

namespace EdgeScan

inductive PortListPlace
  | file
  | configDefault
  | configHost (host : String)
  | argument (spec : String)
  | hostArgument (spec : String)
deriving DecidableEq, Repr

/-- The context that a place gives to an error, if any. -/
def PortListPlace.context? : PortListPlace → Option String
  | file => none
  | configDefault => some "default_scan_ports"
  | configHost host => some ("test_ports for " ++ host)
  | argument spec => some ("invalid --ports: " ++ spec)
  | hostArgument spec => some ("invalid --test-ports: " ++ spec)

inductive SetupError
  | unreadableConfig (path : String) (error : FileError)
  | badConfig (path : String) (error : JsonError)
  | unreadablePorts (path : String) (error : FileError)
  | badPorts (place : PortListPlace) (error : PortList.ListError)
  | noHostPorts (spec : String)
  | badOptions (error : ScanError)
deriving Repr

namespace SetupError

def failure : SetupError → Failure
  | unreadableConfig path error => ⟨["failed to read config file: " ++ path], error.message⟩
  | badConfig path error => ⟨["invalid config file: " ++ path], error.message⟩
  | unreadablePorts path error => ⟨["failed to read ports file: " ++ path], error.message⟩
  | badPorts place error =>
    match place.context? with
    | none => error.failure
    | some context => error.failure.within context
  | noHostPorts spec => .of ("invalid --test-ports " ++ spec ++ ": expected HOST=PORTS")
  | badOptions error => .of error.message

end SetupError

namespace PortList

def parseAt (place : PortListPlace) (s : String) : Except SetupError (List UInt16) :=
  (parse s).mapError (.badPorts place)

def load (files : Files) (path : String) : Except SetupError (List UInt16) := do
  let s ← (files.text path).mapError (.unreadablePorts path)
  parseAt .file s

end PortList

end EdgeScan
