import EdgeScan.Json.Tree
import EdgeScan.Ranking

/-!
What a finished scan reports: its counters and results, as a table and as a JSON document.
-/

namespace EdgeScan

structure Summary where
  candidates : Nat := 0
  icmpPassed : Nat := 0
  tcpPassed : Nat := 0
  handshakesOk : Nat := 0
  handshakesFailed : Nat := 0
  found : Nat := 0
  endpoints : List Measurement := []
deriving DecidableEq, Repr

/-- A measurement as a JSON object, unless its time cannot be written. -/
def Measurement.tree? (m : Measurement) : Option JsonTree := do
  let takenAt ← m.takenAt.rfc3339?
  return .object [("addr", .string m.endpoint.text), ("rtt_ms", .number m.rtt.millisText),
    ("created_at", .string takenAt)]

namespace Summary

def tree? (s : Summary) : Option JsonTree := do
  let endpoints ← s.endpoints.mapM Measurement.tree?
  return .object
    [("candidates", .number (toString s.candidates)),
     ("icmp_passed", .number (toString s.icmpPassed)),
     ("tcp_passed", .number (toString s.tcpPassed)),
     ("handshake_ok", .number (toString s.handshakesOk)),
     ("handshake_failed", .number (toString s.handshakesFailed)),
     ("found", .number (toString s.found)),
     ("endpoints", .array endpoints)]

def alignLeft (width : Nat) (fill : Char) (s : String) : String :=
  s.pushn fill (width - s.length)

def alignRight (width : Nat) (s : String) : String :=
  "".pushn ' ' (width - s.length) ++ s

/-- The table of results under a line with the counters. The first column is as wide as its widest
entry. -/
def table (s : Summary) : String :=
  let texts := s.endpoints.map fun m => m.endpoint.text
  let width := texts.foldl (fun w t => max w t.length) "endpoint".length
  let row := fun (left right : String) => alignLeft width ' ' left ++ "  " ++ alignRight 8 right ++ "\n"
  s!"\nFound: {s.found} (candidates: {s.candidates}, icmp passed: {s.icmpPassed}, " ++
    s!"tcp passed: {s.tcpPassed}, handshakes ok/failed: {s.handshakesOk}/{s.handshakesFailed})\n" ++
    row "endpoint" "rtt_ms" ++
    alignLeft width '-' "" ++ "  " ++ alignLeft 8 '-' "" ++ "\n" ++
    String.join (s.endpoints.map fun m => row m.endpoint.text m.rtt.millisFixed)

end Summary

end EdgeScan
