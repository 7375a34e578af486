import Bourse.Book.Basic
/-!
# Snapshots

A snapshot is the persistent form of a book: for each of the four ladders, every price with
its queue in ascending price, then the history, then the next order id to hand out.

`Book.capture` writes a snapshot and `Book.restore` reads one back. Restoring normalises:
orders of size 0 are dropped, every order is re-priced to the key it is filed under, levels
left empty disappear, the history is kept verbatim and the resting count is recounted.
`Snapshot.floor` is the least id that is still fresh after a restore: above every id in the
snapshot, zero-size orders included, and not below the recorded next id.
-/

namespace Bourse

/-- The persistent form of a book. -/
structure Snapshot where
  asks : List (UInt64 × List Order)
  bids : List (UInt64 × List Order)
  stopAsks : List (UInt64 × List Order)
  stopBids : List (UInt64 × List Order)
  history : List Order
  nextId : UInt64
  deriving DecidableEq, Repr, Inhabited

namespace Snapshot

/-- Every order in a snapshot: the four maps in order, then the history. -/
def allOrders (s : Snapshot) : List Order :=
  (s.asks ++ s.bids ++ s.stopAsks ++ s.stopBids).flatMap (·.2) ++ s.history

/-- The largest order id anywhere in the snapshot, zero-size orders included. -/
def maxId? (s : Snapshot) : Option UInt64 :=
  s.allOrders.foldl (fun acc o => some (match acc with | none => o.id | some m => max m o.id))
    none

/-- The least id above every id of the snapshot and not below its recorded next id. -/
def floor (s : Snapshot) : UInt64 :=
  let seen : UInt64 := match s.maxId? with
    | none => 0
    | some m => m + 1
  max seen s.nextId

end Snapshot

namespace Ladder

/-- Files the orders of one price under that price, skipping orders of size 0. -/
def fileAt (ld : Ladder) (price : UInt64) (os : List Order) : Ladder :=
  os.foldl (fun acc o => if o.size = 0 then acc else acc.insert { o with price }) ld

/-- The ladder rebuilt from a price map, in its order. -/
def ofEntries (entries : List (UInt64 × List Order)) : Ladder :=
  entries.foldl (fun acc e => acc.fileAt e.1 e.2) empty

end Ladder

namespace Book

/-- The snapshot of a book, with the next id to record. -/
def capture (b : Book) (nextId : UInt64) : Snapshot :=
  { asks := b.asks.entries, bids := b.bids.entries, stopAsks := b.stopAsks.entries,
    stopBids := b.stopBids.entries, history := b.history, nextId }

/-- The book a snapshot describes, normalised. -/
def restore (s : Snapshot) : Book :=
  let asks := Ladder.ofEntries s.asks
  let bids := Ladder.ofEntries s.bids
  let stopAsks := Ladder.ofEntries s.stopAsks
  let stopBids := Ladder.ofEntries s.stopBids
  { asks, bids, stopAsks, stopBids, history := s.history,
    resting := asks.count + bids.count + stopAsks.count + stopBids.count }

end Book

end Bourse
