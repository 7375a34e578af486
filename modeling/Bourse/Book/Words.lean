import Bourse.Book.Snapshot
/-!
# Word steps

The book keeps its counts and totals in unsigned 64-bit words, and the program is built with
overflow checks: it stops at the first addition that leaves the word or subtraction that goes
below zero. The book's own numbers are exact (`Nat`). A `WordOp` names one step of word
arithmetic by the values it combines; the steps an operation makes, in the order it makes
them, say whether it stops.

A restore makes its steps on the snapshot it is given, which may be anything a file or a
request holds, so whether it stops is part of what it does: `Snapshot.restoreSteps` lists its
steps (one past the largest id for the floor, every size onto its level's total, then the
counts) and `Snapshot.restoreOverflows` tells whether one of them leaves the word.
-/

namespace Bourse

/-- An arithmetic step on unsigned 64-bit words: the sum or the difference of two words,
given by their values. -/
inductive WordOp where
  | add (a b : Nat)
  | sub (a b : Nat)
  deriving DecidableEq, Repr

namespace WordOp

/-- A step is exact when its result is again a word: a sum below `2 ^ 64`, a difference that
does not go below zero.  A build with overflow checks stops at any other step. -/
def Exact : WordOp → Prop
  | add a b => a + b < UInt64.size
  | sub a b => b ≤ a

instance (w : WordOp) : Decidable w.Exact :=
  match w with
  | add a b => inferInstanceAs (Decidable (a + b < UInt64.size))
  | sub a b => inferInstanceAs (Decidable (b ≤ a))

/-- The word steps of summing numbers onto `acc`, left to right. -/
def sumSteps (acc : Nat) : List Nat → List WordOp
  | [] => []
  | x :: xs => add acc x :: sumSteps (acc + x) xs

end WordOp

namespace Ladder

/-- The total resting at a price; 0 where the ladder has no level there. -/
def totalAt (ld : Ladder) (p : UInt64) : Nat := ((ld.level? p).map (·.total)).getD 0

/-- The word steps of filing the orders of one price: each order of positive size adds its
size onto the total of its level as it stands then (a new level starts from 0). -/
def fileSteps (ld : Ladder) (price : UInt64) : List Order → List WordOp
  | [] => []
  | o :: os =>
    if o.size = 0 then ld.fileSteps price os
    else .add (ld.totalAt price) o.size.toNat :: (ld.insert { o with price }).fileSteps price os

/-- The word steps of rebuilding the entries of a price map onto a ladder, in their order. -/
def rebuildSteps (ld : Ladder) : List (UInt64 × List Order) → List WordOp
  | [] => []
  | e :: es => ld.fileSteps e.1 e.2 ++ (ld.fileAt e.1 e.2).rebuildSteps es

/-- The word steps of counting a ladder's orders: the length of each level onto the sum. -/
def countSteps (ld : Ladder) : List WordOp := WordOp.sumSteps 0 (ld.levels.map (·.2.length))

end Ladder

namespace Snapshot

/-- The word step of the floor: one past the largest id, when there is one. -/
def floorSteps (s : Snapshot) : List WordOp :=
  match s.maxId? with
  | none => []
  | some m => [.add m.toNat 1]

/-- The word steps of a restore, in order: the floor, the rebuild of the four ladders, the
count of each, and the sum of the four counts. -/
def restoreSteps (s : Snapshot) : List WordOp :=
  s.floorSteps ++ [s.asks, s.bids, s.stopAsks, s.stopBids].flatMap Ladder.empty.rebuildSteps ++
    (Book.restore s).ladders.flatMap Ladder.countSteps ++
    WordOp.sumSteps 0 ((Book.restore s).ladders.map Ladder.count)

/-- Whether restoring the snapshot leaves the word at some step, where the program stops. -/
def restoreOverflows (s : Snapshot) : Bool := s.restoreSteps.any fun w => !decide w.Exact

end Snapshot

end Bourse
