import Bourse.Book.Ladder
/-!
# The book

A book holds four ladders (limit asks, limit bids, stop asks, stop bids), the history of
executed orders in execution order, and the count of resting orders. Inserting an order
never trades: a limit order rests at its price and a stop order at its trigger until a
market execution releases it (see `Bourse.Book.Match`).

Lookups search the resting ladders in the fixed order limit asks, limit bids, stop asks,
stop bids, and then the history. Cancelling removes the first resting match in that order.
-/

namespace Bourse

/-- The order book: four ladders, the execution history and the resting count. -/
structure Book where
  asks : Ladder
  bids : Ladder
  stopAsks : Ladder
  stopBids : Ladder
  history : List Order
  resting : Nat
  deriving DecidableEq, Repr, Inhabited

/-- One price and the total size resting there, as depth reports it. -/
structure DepthLevel where
  price : UInt64
  size : Nat
  deriving DecidableEq, Repr

/-- The best levels of both limit ladders, best first. -/
structure Depth where
  bids : List DepthLevel
  asks : List DepthLevel
  deriving DecidableEq, Repr

namespace Book

/-- The book with nothing in it. -/
def empty : Book :=
  { asks := .empty, bids := .empty, stopAsks := .empty, stopBids := .empty,
    history := [], resting := 0 }

/-- The limit ladder of a side. -/
def limitSide (b : Book) : Side → Ladder
  | .bid => b.bids
  | .ask => b.asks

/-- The stop ladder of a side. -/
def stopSide (b : Book) : Side → Ladder
  | .bid => b.stopBids
  | .ask => b.stopAsks

/-- The highest resting limit bid. -/
def bestBid (b : Book) : Option UInt64 := b.bids.highest

/-- The lowest resting limit ask. -/
def bestAsk (b : Book) : Option UInt64 := b.asks.lowest

/-- Rests a limit order at its price on its own side. -/
def insertLimit (b : Book) (o : Order) : Book :=
  match o.side with
  | .bid => { b with bids := b.bids.insert o, resting := b.resting + 1 }
  | .ask => { b with asks := b.asks.insert o, resting := b.resting + 1 }

/-- Rests a stop order at its trigger price on its own side. -/
def insertStop (b : Book) (o : Order) : Book :=
  match o.side with
  | .bid => { b with stopBids := b.stopBids.insert o, resting := b.resting + 1 }
  | .ask => { b with stopAsks := b.stopAsks.insert o, resting := b.resting + 1 }

/-- The four resting ladders in search order. -/
def ladders (b : Book) : List Ladder := [b.asks, b.bids, b.stopAsks, b.stopBids]

/-- The first resting order with an id, else the first executed one. -/
def find? (b : Book) (id : UInt64) : Option Order :=
  match b.asks.find? id with
  | some o => some o
  | none =>
    match b.bids.find? id with
    | some o => some o
    | none =>
      match b.stopAsks.find? id with
      | some o => some o
      | none =>
        match b.stopBids.find? id with
        | some o => some o
        | none => b.history.find? (·.id == id)

/-- Removes the first resting order with an id, searching limit asks, limit bids, stop
asks, then stop bids. -/
def cancel? (b : Book) (id : UInt64) : Option (Order × Book) :=
  match b.asks.remove? id with
  | some (o, ld) => some (o, { b with asks := ld, resting := b.resting - 1 })
  | none =>
    match b.bids.remove? id with
    | some (o, ld) => some (o, { b with bids := ld, resting := b.resting - 1 })
    | none =>
      match b.stopAsks.remove? id with
      | some (o, ld) => some (o, { b with stopAsks := ld, resting := b.resting - 1 })
      | none =>
        match b.stopBids.remove? id with
        | some (o, ld) => some (o, { b with stopBids := ld, resting := b.resting - 1 })
        | none => none

/-- The first `n` levels of each limit ladder, bids from the highest and asks from the
lowest price. -/
def depth (b : Book) (n : Nat) : Depth :=
  let level := fun (pt : UInt64 × Nat) => ({ price := pt.1, size := pt.2 } : DepthLevel)
  { bids := (b.bids.totals.reverse.take n).map level,
    asks := (b.asks.totals.take n).map level }

/-- The limit level at a price on a side. -/
def limitLevel? (b : Book) (side : Side) (price : UInt64) : Option Level :=
  (b.limitSide side).level? price

/-- The stop level at a trigger price on a side. -/
def stopLevel? (b : Book) (side : Side) (price : UInt64) : Option Level :=
  (b.stopSide side).level? price

/-- The executed stops, in execution order. -/
def executedStops (b : Book) : List Order := b.history.filter (·.kind == .stop)

end Book

end Bourse
