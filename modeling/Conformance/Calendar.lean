import Conformance.Text.Lines

namespace Conformance

-- A day of the Gregorian calendar, extended to all times.
structure Date where
  year : Int
  month : Int
  day : Int
deriving DecidableEq, Repr

namespace Calendar

-- Days in four centuries, after which the calendar repeats.
def eraDays : Int := 146097

-- The date some days after the first of January 1970. Years are counted from
-- the first of March, so that the leap day is the last of a year.
def dateOfDays (days : Int) : Date :=
  let shifted := days + 719468
  let era := shifted / eraDays
  let dayOfEra := shifted % eraDays
  let yearOfEra :=
    (dayOfEra - dayOfEra / 1460 + dayOfEra / 36524 - dayOfEra / 146096) / 365
  let dayOfYear := dayOfEra - (365 * yearOfEra + yearOfEra / 4 - yearOfEra / 100)
  let monthFromMarch := (5 * dayOfYear + 2) / 153
  let day := dayOfYear - (153 * monthFromMarch + 2) / 5 + 1
  let month := if monthFromMarch < 10 then monthFromMarch + 3 else monthFromMarch - 9
  let year := yearOfEra + era * 400 + (if month ≤ 2 then 1 else 0)
  ⟨year, month, day⟩

def padded (width : Nat) (n : Int) : String :=
  if 0 ≤ n then Text.zeroPadded width n.toNat
  else "-" ++ Text.zeroPadded (width - 1) n.natAbs

-- The text of a time in universal time, to the millisecond.
def timestamp (seconds millis : Nat) : String :=
  let date := dateOfDays (seconds / 86400 : Nat)
  let rest := seconds % 86400
  padded 4 date.year ++ "-" ++ padded 2 date.month ++ "-" ++ padded 2 date.day ++ "T" ++
    Text.zeroPadded 2 (rest / 3600) ++ ":" ++ Text.zeroPadded 2 (rest % 3600 / 60) ++ ":" ++
    Text.zeroPadded 2 (rest % 60) ++ "." ++ Text.zeroPadded 3 millis ++ "Z"

end Calendar

end Conformance
