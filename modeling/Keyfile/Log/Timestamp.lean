import Keyfile.Text.Basic

/-!
# Times in front of records

A time is given by the seconds since the beginning of 1970 and is written as a date and a clock time
with milliseconds.
-/

namespace Keyfile.Log

/-- A day of the calendar. -/
structure Date where
  year : Int
  month : Nat
  day : Nat
  deriving DecidableEq, Repr

/-- The day that is so many days after the first of January 1970. The years are counted from the
first of March, so that a leap day is the last day of its year. -/
def Date.ofDays (days : Int) : Date :=
  let shifted := days + 719468
  let era := shifted / 146097
  let dayOfEra := (shifted % 146097).toNat
  let yearOfEra :=
    (dayOfEra - dayOfEra / 1460 + dayOfEra / 36524 - dayOfEra / 146096) / 365
  let dayOfYear := dayOfEra - (365 * yearOfEra + yearOfEra / 4 - yearOfEra / 100)
  let monthFromMarch := (5 * dayOfYear + 2) / 153
  let month := if monthFromMarch < 10 then monthFromMarch + 3 else monthFromMarch - 9
  { year := era * 400 + yearOfEra + (if month ≤ 2 then 1 else 0)
    month
    day := dayOfYear - (153 * monthFromMarch + 2) / 5 + 1 }

def padded (width n : Nat) : Text :=
  let digits := Text.ofNat n
  List.replicate (width - digits.length) '0' ++ digits

def timeText (seconds : Int) (milliseconds : Nat) : Text :=
  let date := Date.ofDays (seconds / 86400)
  let clock := (seconds % 86400).toNat
  Text.join ['-'] [padded 4 date.year.toNat, padded 2 date.month, padded 2 date.day] ++ ' ' ::
    Text.join [':'] [padded 2 (clock / 3600), padded 2 (clock / 60 % 60), padded 2 (clock % 60)] ++
    ',' :: padded 3 milliseconds

end Keyfile.Log
