import Bourse.Calendar
import Bourse.Text.Blank
/-!
# Month codes

A month code is six ASCII digits `MMYYYY`, blanks around it allowed. `MonthCode.parse`
classifies every text: `malformed` (quoting the trimmed text) unless it is exactly six ASCII
digit bytes, else `invalidMonth` unless `MM` lies in 1 to 12, else the month.
`MonthCode.parseNotFuture` also refuses a month after the UTC month of a clock, the clock
read as signed milliseconds; a clock without a date refuses nothing.

`MonthCode.bounds` gives the first millisecond of the month and of the month after it, by
`Calendar.monthStart`.
-/

namespace Bourse

/-- A calendar month. -/
structure MonthCode where
  year : Int
  month : Nat
  deriving DecidableEq, Repr

/-- Why a month code was refused. -/
inductive MonthError where
  | malformed (code : String)
  | invalidMonth (month : Nat)
  | future (month : Nat) (year : Int)
  deriving DecidableEq, Repr

namespace MonthError

/-- A number written with at least two digits. -/
def twoDigits (n : Nat) : String := if n < 10 then "0" ++ toString n else toString n

/-- The message of a refusal. -/
def message : MonthError → String
  | malformed code => "Malformed month code '" ++ code ++ "', expected MMYYYY"
  | invalidMonth m => "Invalid month: " ++ toString m
  | future m y => "Month " ++ twoDigits m ++ "/" ++ toString y ++ " is in the future"

/-- The name of the kind of refusal. -/
def kind : MonthError → String
  | malformed _ => "Malformed"
  | invalidMonth _ => "InvalidMonth"
  | future .. => "FutureMonth"

end MonthError

namespace MonthCode

/-- Whether one month comes after another. -/
def after (a b : MonthCode) : Bool := a.year > b.year || (a.year == b.year && a.month > b.month)

/-- The number written by decimal digits. -/
def digitsValue (ds : List Char) : Nat := ds.foldl (fun acc c => acc * 10 + (c.toNat - 48)) 0

/-- Reads a month code. -/
def parse (code : String) : Except MonthError MonthCode :=
  let t := trimBlanks code
  let cs := t.toList
  if t.utf8ByteSize = 6 ∧ cs.all (fun c => '0' ≤ c && c ≤ '9') then
    let month := digitsValue (cs.take 2)
    let year := digitsValue (cs.drop 2)
    if 1 ≤ month ∧ month ≤ 12 then .ok { year, month } else .error (.invalidMonth month)
  else .error (.malformed t)

/-- The UTC month of a clock reading, when it has a date. -/
def ofClock (now : UInt64) : Option MonthCode :=
  (Calendar.dateOfMillis (Calendar.signed now)).map fun (y, m, _) => { year := y, month := m }

/-- Reads a month code that does not lie after the month of the clock. -/
def parseNotFuture (code : String) (now : UInt64) : Except MonthError MonthCode := do
  let m ← parse code
  match ofClock now with
  | some current => if m.after current then .error (.future m.month m.year) else .ok m
  | none => .ok m

/-- The month after this one. -/
def next (m : MonthCode) : MonthCode :=
  if m.month = 12 then { year := m.year + 1, month := 1 } else { m with month := m.month + 1 }

/-- The first millisecond of the month and of the next one. -/
def bounds (m : MonthCode) : UInt64 × UInt64 :=
  (Calendar.monthStart m.year m.month, Calendar.monthStart m.next.year m.next.month)

end MonthCode

end Bourse
