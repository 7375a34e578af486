/-!
# The UTC calendar

Days are counted from 1970-01-01 in the proleptic Gregorian calendar (`daysFromCivil` and
`civilOfDays` are inverse). Instants are milliseconds since that epoch, read as a signed
64-bit count.

The calendar this library works in reaches from the first day of year -262143 to the last
day of year 262142 (`inRange`); an instant or month start outside it has no date. Instants
before the epoch are negative; a month start before it is reported as 0.
-/

namespace Bourse

namespace Calendar

/-- Milliseconds in a day. -/
def dayMillis : Int := 86400000

/-- The first year that has dates. -/
def firstYear : Int := -262143

/-- The last year that has dates. -/
def lastYear : Int := 262142

/-- Whether a year has dates. -/
def inRange (year : Int) : Bool := firstYear ≤ year && year ≤ lastYear

/-- The day number of a civil date, counted from 1970-01-01 (March-based eras of 400 years). -/
def daysFromCivil (year : Int) (month day : Nat) : Int :=
  let y : Int := if month ≤ 2 then year - 1 else year
  let era := y / 400
  let yoe := y - era * 400
  let mp : Int := if month > 2 then (month : Int) - 3 else (month : Int) + 9
  let doy := (153 * mp + 2) / 5 + (day : Int) - 1
  let doe := yoe * 365 + yoe / 4 - yoe / 100 + doy
  era * 146097 + doe - 719468

/-- The civil date (year, month, day) of a day number. -/
def civilOfDays (days : Int) : Int × Nat × Nat :=
  let z := days + 719468
  let era := z / 146097
  let doe := z - era * 146097
  let yoe := (doe - doe / 1460 + doe / 36524 - doe / 146096) / 365
  let y := yoe + era * 400
  let doy := doe - (365 * yoe + yoe / 4 - yoe / 100)
  let mp := (5 * doy + 2) / 153
  let d := doy - (153 * mp + 2) / 5 + 1
  let m := if mp < 10 then mp + 3 else mp - 9
  ((if m ≤ 2 then y + 1 else y), m.toNat, d.toNat)

/-- The civil date of an instant in milliseconds, when it has one. -/
def dateOfMillis (millis : Int) : Option (Int × Nat × Nat) :=
  let date := civilOfDays (millis / dayMillis)
  if inRange date.1 then some date else none

/-- A word read as a signed 64-bit count. -/
def signed (w : UInt64) : Int :=
  if w.toNat < Nat.pow 2 63 then w.toNat else (w.toNat : Int) - Int.pow 2 64

/-- The first millisecond of a month, as a word: 0 before the epoch, and the largest word
when the month has no first day (a month outside 1 to 12, or a year without dates). -/
def monthStart (year : Int) (month : Nat) : UInt64 :=
  if 1 ≤ month ∧ month ≤ 12 ∧ inRange year then
    let ms := daysFromCivil year month 1 * dayMillis
    if ms < 0 then 0 else ms.toNat.toUInt64
  else UInt64.ofNat (Nat.pow 2 64 - 1)

end Calendar

end Bourse
