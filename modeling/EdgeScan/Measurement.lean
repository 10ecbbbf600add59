import EdgeScan.Address.Printer
import EdgeScan.Calendar
import EdgeScan.Decimal.Fixed
import EdgeScan.Decimal.Shortest
import EdgeScan.Duration

/-!
Measurements: an endpoint, the time its answer took, and when it was measured.
-/

namespace EdgeScan

structure Measurement where
  endpoint : Endpoint
  rtt : Duration
  takenAt : Moment := ⟨0, 0⟩
deriving DecidableEq, Repr, Inhabited

def Duration.floatMillis (d : Duration) : Float :=
  (d.seconds.toUInt64.toFloat + d.subsecond.toUInt64.toFloat / 1e9) * 1000.0

/-- Round trips in results files are written positionally from 10^-5 up to 10^16. -/
def Duration.format : Decimal.FloatFormat := ⟨-5, 15⟩

/-- The milliseconds of a duration with as many digits as are needed to read them back. -/
def Duration.millisText (d : Duration) : String := Duration.format.text d.floatMillis

def Duration.millisFixed (d : Duration) : String :=
  Decimal.fixedText 2 (.ofFloat d.floatMillis)

end EdgeScan
