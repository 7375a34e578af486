import Bourse.Month
import Bourse.Order
/-!
# Daily price summaries

`aggregateRange history start stop` summarises the executed orders with a timestamp in
`[start, stop)`: they are ordered by timestamp (orders with equal timestamps keep their
history order), grouped by the UTC day of the month of their timestamp, and each day gets
its opening and closing price (first and last order) and its highest and lowest price.
Days come in ascending order; an order whose timestamp has no date is left out.
-/

namespace Bourse

/-- The trading of one day of the month. -/
structure DaySummary where
  day : Nat
  opening : UInt64
  closing : UInt64
  highest : UInt64
  lowest : UInt64
  orders : List Order
  deriving DecidableEq, Repr

namespace DaySummary

/-- The day of the month of a timestamp, when it has a date. -/
def dayOf (timestamp : UInt64) : Option Nat :=
  (Calendar.dateOfMillis (Calendar.signed timestamp)).map (·.2.2)

/-- Adds an order to the group of its day, days kept in ascending order. -/
def addTo (day : Nat) (o : Order) : List (Nat × List Order) → List (Nat × List Order)
  | [] => [(day, [o])]
  | (d, os) :: rest =>
    if day < d then (day, [o]) :: (d, os) :: rest
    else if day = d then (d, os ++ [o]) :: rest
    else (d, os) :: addTo day o rest

/-- The summary of one day's orders, in the order they traded. -/
def ofOrders (day : Nat) : List Order → Option DaySummary
  | [] => none
  | o :: rest =>
    let prices := rest.map (·.price)
    some { day, opening := o.price, closing := ((o :: rest).getLast?.map (·.price)).getD o.price,
           highest := prices.foldl max o.price, lowest := prices.foldl min o.price,
           orders := o :: rest }

end DaySummary

/-- The daily summaries of the executed orders in `[start, stop)`. -/
def aggregateRange (history : List Order) (start stop : UInt64) : List DaySummary :=
  let inRange := history.filter fun o => o.executed && start ≤ o.timestamp && o.timestamp < stop
  let sorted := inRange.mergeSort fun a b => a.timestamp ≤ b.timestamp
  let groups := sorted.foldl (fun acc o =>
    match DaySummary.dayOf o.timestamp with
    | some d => DaySummary.addTo d o acc
    | none => acc) []
  groups.filterMap fun (d, os) => DaySummary.ofOrders d os

/-- The daily summaries of a month. -/
def aggregateMonth (history : List Order) (m : MonthCode) : List DaySummary :=
  let (start, stop) := m.bounds
  aggregateRange history start stop

end Bourse
