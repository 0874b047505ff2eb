import Plotline.Number.Shortest

/-!
# Times in a log

* `civil`: the year, month and day of a day counted from the first of January 1970.
* `isoTime`: a moment as a text, in the time of the zero meridian.
-/

namespace Plotline.Log

/-- The year, month and day of a day counted from the first of January 1970. Years begin in March, so that the day that
leap years have more is the last one of a year; 400 years have 146097 days. -/
def civil (day : Int) : Int × Nat × Nat :=
  let shifted := day + 719468
  let inEra := (shifted % 146097).toNat
  let yearOfEra := (inEra - inEra / 1460 + inEra / 36524 - inEra / 146096) / 365
  let dayOfYear := inEra - (365 * yearOfEra + yearOfEra / 4 - yearOfEra / 100)
  let march := (5 * dayOfYear + 2) / 153
  let month := if march < 10 then march + 3 else march - 9
  let year : Int := yearOfEra + 400 * (shifted / 146097)
  (if month ≤ 2 then year + 1 else year, month, dayOfYear - (153 * march + 2) / 5 + 1)

def twoDigits (n : Nat) : String := String.ofList (Number.padded 2 (Number.digits n))

/-- A moment, given in seconds from the beginning of 1970 and millionths of a second. -/
def isoTime (seconds : Int) (micros : Nat) : String :=
  let (year, month, day) := civil (seconds / 86400)
  let second := (seconds % 86400).toNat
  let fraction := if micros = 0 then "" else "." ++ String.ofList (Number.padded 6 (Number.digits micros))
  toString year ++ "-" ++ twoDigits month ++ "-" ++ twoDigits day ++ "T" ++ twoDigits (second / 3600) ++ ":" ++
    twoDigits (second / 60 % 60) ++ ":" ++ twoDigits (second % 60) ++ fraction ++ "+00:00"

end Plotline.Log
