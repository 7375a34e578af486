/-!
# Orders

An order asks the exchange to buy (`Side.bid`) or sell (`Side.ask`) a quantity. A limit
order rests at its price, a stop order rests at its trigger price until a drained level
releases it, and a market order trades at once against the best opposite level.

Every quantity on the wire is an unsigned 64-bit word, so the fields of an `Order` are
`UInt64`. An order counts as executed exactly when its timestamp is not zero: resting
orders carry timestamp 0 and the book stamps an order when it trades.

A `Fill` is one announcement that an order traded, addressed to the order's owner.
-/

namespace Bourse

/-- The two sides of the book: a bid buys and an ask sells. -/
inductive Side where
  | bid
  | ask
  deriving DecidableEq, Repr, Inhabited

namespace Side

/-- The side a taker trades against. -/
def opposite : Side → Side
  | bid => ask
  | ask => bid

/-- The lowercase tag that names a side on the wire. -/
def tag : Side → String
  | bid => "bid"
  | ask => "ask"

@[simp] theorem opposite_opposite (s : Side) : s.opposite.opposite = s := by
  cases s <;> rfl

end Side

/-- How an order enters the book. -/
inductive Kind where
  | limit
  | market
  | stop
  deriving DecidableEq, Repr, Inhabited

/-- The lowercase tag that names a kind on the wire. -/
def Kind.tag : Kind → String
  | .limit => "limit"
  | .market => "market"
  | .stop => "stop"

/-- An order as the book keeps it. `price` is the limit price, the trigger price of a
stop, or the execution price once the order traded. -/
structure Order where
  id : UInt64
  side : Side
  kind : Kind
  size : UInt64
  price : UInt64
  user : String
  timestamp : UInt64
  deriving DecidableEq, Repr, Inhabited

namespace Order

/-- A fresh limit order: not yet executed. -/
def limit (id : UInt64) (side : Side) (size price : UInt64) (user : String) : Order :=
  { id, side, kind := .limit, size, price, user, timestamp := 0 }

/-- A fresh stop order resting at its trigger price. -/
def stop (id : UInt64) (side : Side) (size trigger : UInt64) (user : String) : Order :=
  { id, side, kind := .stop, size, price := trigger, user, timestamp := 0 }

/-- A fresh market order; its price is set when it trades. -/
def market (id : UInt64) (side : Side) (size : UInt64) (user : String) : Order :=
  { id, side, kind := .market, size, price := 0, user, timestamp := 0 }

/-- An order has executed exactly when the book has stamped it. -/
def executed (o : Order) : Bool := o.timestamp != 0

end Order

/-- One announcement of a trade: the owner to tell and the order as it traded. -/
structure Fill where
  user : String
  order : Order
  deriving DecidableEq, Repr

/-- The announcement of an order's own trade, addressed to its owner. -/
def Order.fill (o : Order) : Fill := { user := o.user, order := o }

end Bourse
