import Bourse.Book.Basic
/-!
# Market execution and the stop cascade

A market order trades against one level only: the best level of the opposite limit ladder
(the lowest ask for a bid, the highest bid for an ask). It trades all or nothing: when the
level's total does not cover the size the order fails and the book is untouched. Otherwise
makers are consumed front to back (`Level.consume`), stamped, announced and logged, and then
the taker is priced at the level, stamped, announced and logged.

When an execution drains its level, stops are released: after an ask level drained, the buy
stops with trigger at or below the new best ask; after a bid level drained, the sell stops
with trigger at or above the new best bid. Nothing is released when the drained ladder is
now empty. Released stops leave the book and run in ascending id as market orders of their
own side, keeping kind `stop`; a stop that cannot trade is dropped. A stop that drains a
level releases its own group, which runs in full before the rest of the group that
released it (`Book.cascade` keeps the pending groups on a stack).
-/

namespace Bourse

/-- The time stamped on executions: the clock, but never 0, since 0 marks a resting order. -/
def stampOf (clock : UInt64) : UInt64 := max clock 1

/-- Orders sorted by ascending id; orders with equal ids keep their order. -/
def byId (os : List Order) : List Order := os.mergeSort fun a b => a.id ≤ b.id

namespace Book

/-- Replaces the limit ladder of a side. -/
def setLimitSide (b : Book) (side : Side) (ld : Ladder) : Book :=
  match side with
  | .bid => { b with bids := ld }
  | .ask => { b with asks := ld }

/-- The best price of the limit ladder of a side: the highest bid or the lowest ask. -/
def bestOf (b : Book) : Side → Option UInt64
  | .bid => b.bestBid
  | .ask => b.bestAsk

/-- Takes `size` from the best level opposite to `taker`. Fails when there is no such level
or its total is below `size`. Otherwise returns the level price, whether the level drained,
the book after it (history untouched) and the makers taken whole, stamped with `now`. -/
def matchBest (b : Book) (taker : Side) (size now : UInt64) :
    Option (UInt64 × Bool × Book × List Order) :=
  let makerSide := taker.opposite
  let ladder := b.limitSide makerSide
  match b.bestOf makerSide with
  | none => none
  | some price =>
    match ladder.level? price with
    | none => none
    | some l =>
      if l.total < size.toNat then none
      else
        let (taken, left, amount) := Level.consume l.queue size
        let makers := taken.map fun o => { o with timestamp := now }
        let drained := left.isEmpty
        let level? := if drained then none else some { queue := left, total := l.total - amount }
        let b' := b.setLimitSide makerSide (ladder.setLevel price level?)
        some (price, drained, { b' with resting := b'.resting - makers.length }, makers)

/-- Executes an order as a market order of its side. On success returns whether it drained
its level, the book with makers and then the order itself appended to the history, and the
fills announced, in that order. -/
def execute (b : Book) (o : Order) (clock : UInt64) : Option (Bool × Book × List Fill) :=
  let now := stampOf clock
  match b.matchBest o.side o.size now with
  | none => none
  | some (price, drained, b', makers) =>
    let done := makers ++ [{ o with price, timestamp := now }]
    some (drained, { b' with history := b'.history ++ done }, done.map Order.fill)

/-- Releases the stops triggered after a level of `drained` emptied: with `P` the new best
price of that limit ladder, the buy stops at or below `P` (ask drained) or the sell stops at
or above `P` (bid drained). Returns the book without them and the stops by ascending id. -/
def release (b : Book) (drained : Side) : Book × List Order :=
  match drained with
  | .ask =>
    match b.bestAsk with
    | none => (b, [])
    | some p =>
      let (taken, kept) := b.stopBids.takeAtOrBelow p
      ({ b with stopBids := kept, resting := b.resting - taken.length }, byId taken)
  | .bid =>
    match b.bestBid with
    | none => (b, [])
    | some p =>
      let (taken, kept) := b.stopAsks.takeAtOrAbove p
      ({ b with stopAsks := kept, resting := b.resting - taken.length }, byId taken)

/-- Pushes a released group on the stack of pending groups; an empty group is not pushed. -/
def pushGroup (group : List Order) (pending : List (List Order)) : List (List Order) :=
  if group.isEmpty then pending else group :: pending

/-- Runs pending stop groups, the top group first and each group front to back. The fuel
bounds the number of stops run; `cascade` gives enough for every stop of the book. -/
def runStops (clock : UInt64) : Nat → Book → List (List Order) → List Fill → Book × List Fill
  | 0, b, _, fills => (b, fills)
  | _ + 1, b, [], fills => (b, fills)
  | fuel + 1, b, [] :: rest, fills => runStops clock fuel b rest fills
  | fuel + 1, b, (stop :: group) :: rest, fills =>
    let pending := pushGroup group rest
    match b.execute stop clock with
    | none => runStops clock fuel b pending fills
    | some (false, b', fs) => runStops clock fuel b' pending (fills ++ fs)
    | some (true, b', fs) =>
      let (b'', released) := b'.release stop.side.opposite
      runStops clock fuel b'' (pushGroup released pending) (fills ++ fs)

/-- The stop cascade after a level of `drained` emptied. -/
def cascade (b : Book) (drained : Side) (clock : UInt64) : Book × List Fill :=
  let (b', released) := b.release drained
  let fuel := b'.stopAsks.count + b'.stopBids.count + released.length + 1
  runStops clock fuel b' (pushGroup released []) []

/-- A market order of a given id. Fails, leaving the book untouched, when the best opposite
level cannot cover it; otherwise returns the book after the execution and its cascade, and
every fill in announcement order. -/
def market (b : Book) (id : UInt64) (side : Side) (size : UInt64) (user : String)
    (clock : UInt64) : Option (Book × List Fill) :=
  match b.execute (Order.market id side size user) clock with
  | none => none
  | some (false, b', fs) => some (b', fs)
  | some (true, b', fs) =>
    let (b'', more) := b'.cascade side.opposite clock
    some (b'', fs ++ more)

end Book

end Bourse
