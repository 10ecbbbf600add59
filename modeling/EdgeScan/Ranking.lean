import EdgeScan.Measurement

/-!
The results of a scan, ranked by round trip. A ranking of bounded capacity keeps the fastest
measurements; among equals the earlier one ranks first.
-/

namespace EdgeScan

/-- Measurements in ascending order of round trip, at most `capacity` of them; the capacity 0 is
no bound. -/
structure Ranking where
  capacity : Nat
  entries : List Measurement
deriving DecidableEq, Repr

namespace Ranking

def empty (capacity : Nat) : Ranking := ⟨capacity, []⟩

/-- Puts a measurement behind all that are not slower. -/
def place (m : Measurement) : List Measurement → List Measurement
  | [] => [m]
  | e :: rest => if e.rtt ≤ m.rtt then e :: place m rest else m :: e :: rest

/-- Adds a measurement. If the ranking was full, its slowest entry is dropped and handed back. -/
def enqueue (r : Ranking) (m : Measurement) : Ranking × Option Measurement :=
  let entries := place m r.entries
  if 0 < r.capacity ∧ r.capacity < entries.length then
    ({ r with entries := entries.dropLast }, entries.getLast?)
  else ({ r with entries }, none)

/-- The entries, fastest first or, if `descending`, slowest first. -/
def list (r : Ranking) (descending : Bool) : List Measurement :=
  if descending then r.entries.reverse else r.entries

def size (r : Ranking) : Nat := r.entries.length

def isEmpty (r : Ranking) : Bool := r.entries.isEmpty

@[simp] theorem length_place (m : Measurement) (l : List Measurement) :
    (place m l).length = l.length + 1 := by
  induction l with
  | nil => rfl
  | cons e rest ih => by_cases h : e.rtt ≤ m.rtt <;> simp [place, h, ih]

end Ranking

end EdgeScan
