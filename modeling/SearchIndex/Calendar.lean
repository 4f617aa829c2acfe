/-!
# Calendar dates

Days are counted from 1 January 1970 in the proleptic Gregorian calendar, whose
years repeat every 400 years of 146097 days. `Date.ofDays` finds the date of a day
and `Date.toDays` the day of a date. An instant is a number of milliseconds since
the first day began; `Instant.text` writes it as an RFC 3339 timestamp.
-/

namespace SearchIndex

/-- A date of the proleptic Gregorian calendar; the year 0 is the one before 1. -/
structure Date where
  year : Int
  month : Nat
  day : Nat
deriving DecidableEq

namespace Date

/-- The date of a day. Years are taken to begin in March, so that the day that a
leap year adds is its last one. -/
def ofDays (days : Int) : Date :=
  let shifted := days + 719468
  let era := shifted.fdiv 146097
  let dayOfEra : Nat := (shifted.fmod 146097).toNat
  let yearOfEra :=
    (dayOfEra - dayOfEra / 1460 + dayOfEra / 36524 - dayOfEra / 146096) / 365
  let dayOfYear := dayOfEra - (365 * yearOfEra + yearOfEra / 4 - yearOfEra / 100)
  let monthFromMarch := (5 * dayOfYear + 2) / 153
  let month := if monthFromMarch < 10 then monthFromMarch + 3 else monthFromMarch - 9
  { year := era * 400 + yearOfEra + (if month ≤ 2 then 1 else 0)
    month := month
    day := dayOfYear - (153 * monthFromMarch + 2) / 5 + 1 }

/-- The day of a date. -/
def toDays (d : Date) : Int :=
  let year := if d.month ≤ 2 then d.year - 1 else d.year
  let era := year.fdiv 400
  let yearOfEra : Nat := (year.fmod 400).toNat
  let monthFromMarch := if 2 < d.month then d.month - 3 else d.month + 9
  let dayOfYear := (153 * monthFromMarch + 2) / 5 + d.day - 1
  let dayOfEra : Nat := yearOfEra * 365 + yearOfEra / 4 - yearOfEra / 100 + dayOfYear
  era * 146097 + dayOfEra - 719468

end Date

/-- The digits of a number, padded with zeros to a width. -/
def padded (width n : Nat) : String :=
  let digits := Nat.toDigits 10 n
  String.ofList (List.replicate (width - digits.length) '0' ++ digits)

namespace Instant

/-- The first millisecond that has a text. -/
def least : Int := -8334601228800000

/-- The last millisecond that has a text. -/
def greatest : Int := 8210266876799999

/-- A year has at least four digits, and a sign unless it lies between 0 and 9999. -/
def yearText (year : Int) : String :=
  if 0 ≤ year ∧ year ≤ 9999 then padded 4 year.toNat
  else (if year < 0 then "-" else "+") ++ padded 4 year.natAbs

/-- The timestamp of an instant, with milliseconds and in universal time. -/
def text (millis : Int) : String :=
  let date := Date.ofDays (millis.fdiv 86400000)
  let rest := (millis.fmod 86400000).toNat
  yearText date.year ++ "-" ++ padded 2 date.month ++ "-" ++ padded 2 date.day ++ "T" ++
    padded 2 (rest / 3600000) ++ ":" ++ padded 2 (rest / 60000 % 60) ++ ":" ++
    padded 2 (rest / 1000 % 60) ++ "." ++ padded 3 (rest % 1000) ++ "Z"

/-- The timestamp of an instant in the range that has texts. -/
def text? (millis : Int) : Option String :=
  if least ≤ millis ∧ millis ≤ greatest then some (text millis) else none

end Instant

example : (Date.ofDays 19782) = ⟨2024, 2, 29⟩ ∧ (Date.ofDays (-1)) = ⟨1969, 12, 31⟩ := by
  decide

end SearchIndex
