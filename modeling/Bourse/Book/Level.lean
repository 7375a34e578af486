import Bourse.Order
/-!
# Price levels

A level is the queue of orders resting at one price, oldest first, together with the
cached total of their sizes. The cache is what a taker checks against: a market order
trades at a level only when the level's total covers it.

`Level.consume` is the fill rule: makers are taken whole from the front while they fit
into what remains, and the first maker that does not fit is reduced in place.
-/

namespace Bourse

/-- The orders resting at one price, oldest first, and the cached sum of their sizes. -/
structure Level where
  queue : List Order
  total : Nat
  deriving DecidableEq, Repr, Inhabited

namespace Level

/-- The sum of the sizes of some orders, as an exact number. -/
def sizeSum : List Order → Nat
  | [] => 0
  | o :: os => o.size.toNat + sizeSum os

/-- A level holding one order. -/
def single (o : Order) : Level := { queue := [o], total := o.size.toNat }

/-- Appends an order at the back of the queue and adds its size to the total. -/
def push (l : Level) (o : Order) : Level :=
  { queue := l.queue ++ [o], total := l.total + o.size.toNat }

/-- Removes the first order with the given id, and its size from the total. -/
def remove? (l : Level) (id : UInt64) : Option (Order × Level) :=
  match l.queue.findIdx? (fun o => o.id == id) with
  | none => none
  | some i =>
    match l.queue[i]? with
    | none => none
    | some o => some (o, { queue := l.queue.eraseIdx i, total := l.total - o.size.toNat })

/-- The number of orders in the queue. -/
def length (l : Level) : Nat := l.queue.length

/-- Takes `remaining` from the front of a queue. Returns the makers taken whole, the queue
left behind (its front maker reduced when it only partly fits), and the amount taken. -/
def consume : List Order → UInt64 → List Order × List Order × Nat
  | [], _ => ([], [], 0)
  | o :: rest, remaining =>
    if remaining = 0 then ([], o :: rest, 0)
    else if o.size ≤ remaining then
      let (taken, left, amount) := consume rest (remaining - o.size)
      (o :: taken, left, o.size.toNat + amount)
    else ([], { o with size := o.size - remaining } :: rest, remaining.toNat)

@[simp] theorem push_queue (l : Level) (o : Order) : (l.push o).queue = l.queue ++ [o] := rfl

@[simp] theorem push_total (l : Level) (o : Order) :
    (l.push o).total = l.total + o.size.toNat := rfl

end Level

end Bourse
