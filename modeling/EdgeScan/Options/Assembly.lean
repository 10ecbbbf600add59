import EdgeScan.Options.Basic

/-!
Putting options together piece by piece. Endpoints and hosts given as texts are looked up with the
families and the port that the options have at that moment. Options that name no target at all are
completed with the blocks of the WARP edge.
-/

namespace EdgeScan.Options

def addEndpoints (o : Options) (resolver : Resolver) (entries : String) : Options :=
  { o with
    endpoints := o.endpoints ++ (Endpoint.ofList resolver o.port o.families entries).1 }

def addAllEndpoints (o : Options) (resolver : Resolver) (lists : List String) : Options :=
  lists.foldl (fun o entries => o.addEndpoints resolver entries) o

def testPorts (o : Options) (a : Address) (ports : List UInt16) : Options :=
  { o with portTargets := o.portTargets.insert a ports }

/-- The options with a test of the given ports of every usable address of a host. -/
def testHostPorts (o : Options) (resolver : Resolver) (host : String) (ports : List UInt16) :
    Options :=
  (resolver.hostAddresses o.families host).1.foldl (fun o a => o.testPorts a ports) o

/-- The options with a limit on the time of a scan. No time at all stands for no limit. -/
def limitTime (o : Options) (limit : Duration) : Options :=
  { o with scanTimeout := if limit.nanos = 0 then none else some limit }

def setDefaultPorts (o : Options) (ports : List UInt16) : Options :=
  if ports.isEmpty then o else { o with defaultPorts := ports }

def isUntargeted (o : Options) : Bool :=
  o.blocks.isEmpty && o.endpoints.isEmpty && o.portTargets.isEmpty

/-- The options with the blocks of the WARP edge if they name no target. -/
def withTargets (o : Options) : Options :=
  if o.isUntargeted then { o with blocks := warpBlocks } else o

def complete (o : Options) : Except ScanError Options := do
  o.withTargets.validate
  return o.withTargets

end EdgeScan.Options
