/-!
Points in time and their RFC 3339 text. A moment is a number of nanoseconds from the start of
1970, shown at an offset from universal time. Dates follow the Gregorian calendar in both
directions without end.
-/

namespace EdgeScan

structure Moment where
  nanos : Int
  offset : Int := 0
deriving DecidableEq, Repr, Inhabited

structure Date where
  year : Int
  month : Nat
  day : Nat
deriving DecidableEq, Repr

/-- The date that is a number of days after 1 January 1970. Years are counted from March, and in
groups of 400, which repeat. -/
def Date.ofDays (days : Int) : Date :=
  let shifted := days + 719468
  let era := Int.fdiv shifted 146097
  let dayOfEra := (Int.fmod shifted 146097).toNat
  let yearOfEra :=
    (dayOfEra - dayOfEra / 1460 + dayOfEra / 36524 - dayOfEra / 146096) / 365
  let dayOfYear := dayOfEra - (365 * yearOfEra + yearOfEra / 4 - yearOfEra / 100)
  let m := (5 * dayOfYear + 2) / 153
  let day := dayOfYear - (153 * m + 2) / 5 + 1
  let month := if m < 10 then m + 3 else m - 9
  ⟨yearOfEra + era * 400 + (if month ≤ 2 then 1 else 0), month, day⟩

def padded (width n : Nat) : String :=
  let digits := toString n
  "".pushn '0' (width - digits.length) ++ digits

/-- The part of a second in nanoseconds, behind a point and without zeros at its end; nothing if
it is zero. -/
def fractionText (nanos : Nat) : String :=
  if nanos = 0 then ""
  else
    let digits := (padded 9 nanos).toList
    "." ++ String.ofList ((digits.reverse.dropWhile (· = '0')).reverse)

def offsetText (minutes : Int) : String :=
  if minutes = 0 then "Z"
  else
    let sign := if minutes < 0 then "-" else "+"
    sign ++ padded 2 (minutes.natAbs / 60) ++ ":" ++ padded 2 (minutes.natAbs % 60)

def isWritableOffset (seconds : Int) : Bool :=
  seconds.natAbs % 60 == 0 && seconds.natAbs < 86400

/-- The RFC 3339 text of a moment, if its year has at most four digits and its offset can be
written. -/
def Moment.rfc3339? (m : Moment) : Option String :=
  let seconds := Int.fdiv m.nanos 1000000000 + m.offset
  let date := Date.ofDays (Int.fdiv seconds 86400)
  let time := (Int.fmod seconds 86400).toNat
  if date.year < 0 ∨ 9999 < date.year ∨ !isWritableOffset m.offset then none
  else
    some (padded 4 date.year.toNat ++ "-" ++ padded 2 date.month ++ "-" ++ padded 2 date.day ++
      "T" ++ padded 2 (time / 3600) ++ ":" ++ padded 2 (time / 60 % 60) ++ ":" ++
      padded 2 (time % 60) ++ fractionText (Int.fmod m.nanos 1000000000).toNat ++
      offsetText (m.offset / 60))

end EdgeScan
