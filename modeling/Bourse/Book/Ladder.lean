import Bourse.Book.Level
/-!
# Price ladders

A ladder is one side of one book: its price levels in strictly ascending price. The book
keeps four of them (limit asks, limit bids, stop asks, stop bids). Which end is best is the
book's choice: the lowest ask and the highest bid.

Searches run in ascending price and, within a level, oldest first. `takeAtOrBelow` and
`takeAtOrAbove` split a ladder at a trigger price and hand over the orders of the taken
levels in that same order. Both split the levels at a key (`splitOff`): the one above the
price for the first, found by a checked addition, and the price itself for the second.
-/

namespace Bourse

/-- Price levels in strictly ascending price. -/
structure Ladder where
  levels : List (UInt64 × Level)
  deriving DecidableEq, Repr, Inhabited

/-- The next word up, or none for the largest word: addition of one that refuses to wrap. -/
def checkedSucc (x : UInt64) : Option UInt64 :=
  if x.toNat + 1 < UInt64.size then some (x + 1) else none

namespace Ladder

/-- The ladder without levels. -/
def empty : Ladder := { levels := [] }

/-- Adds an order to the back of the level at `price`, creating the level if needed. -/
def insertAt (price : UInt64) (o : Order) : List (UInt64 × Level) → List (UInt64 × Level)
  | [] => [(price, Level.single o)]
  | (p, l) :: rest =>
    if price < p then (price, Level.single o) :: (p, l) :: rest
    else if price = p then (p, l.push o) :: rest
    else (p, l) :: insertAt price o rest

/-- Adds an order to the level of its own price. -/
def insert (ld : Ladder) (o : Order) : Ladder := { levels := insertAt o.price o ld.levels }

/-- The lowest price with a level. -/
def lowest (ld : Ladder) : Option UInt64 := ld.levels.head?.map (·.1)

/-- The highest price with a level. -/
def highest (ld : Ladder) : Option UInt64 := ld.levels.getLast?.map (·.1)

/-- The level at a price. -/
def level? (ld : Ladder) (price : UInt64) : Option Level :=
  (ld.levels.find? (·.1 == price)).map (·.2)

/-- All resting orders, in ascending price and oldest first within a price. -/
def orders (ld : Ladder) : List Order := ld.levels.flatMap (·.2.queue)

/-- The number of resting orders. -/
def count (ld : Ladder) : Nat := ld.orders.length

/-- The first order with an id, in ascending price and oldest first. -/
def find? (ld : Ladder) (id : UInt64) : Option Order := ld.orders.find? (·.id == id)

/-- Removes the first order with an id from the first level, in ascending price, that holds
it; a level left empty is dropped. -/
def removeFrom (id : UInt64) : List (UInt64 × Level) → Option (Order × List (UInt64 × Level))
  | [] => none
  | (p, l) :: rest =>
    match l.remove? id with
    | some (o, l') => some (o, if l'.queue.isEmpty then rest else (p, l') :: rest)
    | none => (removeFrom id rest).map fun (o, rest') => (o, (p, l) :: rest')

/-- Removes the first resting order with an id. -/
def remove? (ld : Ladder) (id : UInt64) : Option (Order × Ladder) :=
  (removeFrom id ld.levels).map fun (o, ls) => (o, { levels := ls })

/-- Splits a ladder at a key, as an ordered map's `split_off` does: the levels keyed below
the key stay, those keyed at or above it are split off. -/
def splitOff (ld : Ladder) (key : UInt64) : Ladder × Ladder :=
  let (below, above) := ld.levels.partition (·.1 < key)
  ({ levels := below }, { levels := above })

/-- Takes every level at or below a price: their orders, and the ladder left above.  The
ladder is split at the next price up; the largest price has none, and then every level is
taken. -/
def takeAtOrBelow (ld : Ladder) (price : UInt64) : List Order × Ladder :=
  let (taken, above) := match checkedSucc price with
    | some bound => ld.splitOff bound
    | none => (ld, empty)
  (taken.orders, above)

/-- Takes every level at or above a price: their orders, and the ladder left below. -/
def takeAtOrAbove (ld : Ladder) (price : UInt64) : List Order × Ladder :=
  let (below, taken) := ld.splitOff price
  (taken.orders, below)

/-- Replaces the level at a price, or drops it when given none. -/
def setLevel (ld : Ladder) (price : UInt64) (l? : Option Level) : Ladder :=
  { levels := ld.levels.filterMap fun (p, l) =>
      if p = price then l?.map (p, ·) else some (p, l) }

/-- Each price with the orders resting there, in ascending price. -/
def entries (ld : Ladder) : List (UInt64 × List Order) := ld.levels.map fun (p, l) => (p, l.queue)

/-- Each price with the total size resting there, in ascending price. -/
def totals (ld : Ladder) : List (UInt64 × Nat) := ld.levels.map fun (p, l) => (p, l.total)

@[simp] theorem empty_levels : empty.levels = [] := rfl

@[simp] theorem insert_levels (ld : Ladder) (o : Order) :
    (ld.insert o).levels = insertAt o.price o ld.levels := rfl

end Ladder

end Bourse
