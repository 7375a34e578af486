import Bourse.Book.Snapshot
import Bourse.Decode.Tree
/-!
# Orders and snapshots as JSON

An order is the object `{"id","side","kind","size","price","user_id","timestamp"}` with
sides and kinds as lowercase tags. A snapshot is the object
`{"limit_ask","limit_bid","stop_ask","stop_bid","history","next_order_id"}` whose four maps
key each price, written in decimal, to its queue of orders.

Reading accepts what `Decode` accepts for these shapes: fields in any order or as a list in
the order above, unknown fields skipped. A snapshot file is written pretty and read back as
a stream.
-/

namespace Bourse

open Json Decode

namespace Side

/-- A side as a JSON tag. -/
def toValue (s : Side) : Value := .string s.tag

/-- The shape of a side. -/
def shape : Shape := .tag "OrderSide" ["bid", "ask"]

/-- The side of a tag index. -/
def ofIndex : Nat → Option Side
  | 0 => some .bid
  | 1 => some .ask
  | _ => none

end Side

namespace Kind

/-- A kind as a JSON tag. -/
def toValue (k : Kind) : Value := .string k.tag

/-- The shape of a kind. -/
def shape : Shape := .tag "OrderKind" ["limit", "market", "stop"]

/-- The kind of a tag index. -/
def ofIndex : Nat → Option Kind
  | 0 => some .limit
  | 1 => some .market
  | 2 => some .stop
  | _ => none

end Kind

namespace Order

/-- The members of an order's object, in declaration order. -/
def members (o : Order) : List (String × Value) :=
  [("id", .word o.id), ("side", o.side.toValue), ("kind", o.kind.toValue),
   ("size", .word o.size), ("price", .word o.price), ("user_id", .string o.user),
   ("timestamp", .word o.timestamp)]

/-- An order as a JSON object. -/
def toValue (o : Order) : Value := .object o.members

/-- The shape of an order. -/
def shape : Shape :=
  .record "Order" [("id", .word), ("side", Side.shape), ("kind", Kind.shape), ("size", .word),
    ("price", .word), ("user_id", .text), ("timestamp", .word)]

/-- The order a datum of `Order.shape` describes. -/
def ofDatum : Datum → Option Order
  | .record [.word id, .tag s, .tag k, .word size, .word price, .text user, .word timestamp] =>
    do return { id, side := ← Side.ofIndex s, kind := ← Kind.ofIndex k, size, price, user,
                timestamp }
  | _ => none

end Order

/-- The fault reported if a datum does not describe what its shape promises; decoding never
produces such a datum. -/
def misshapen (what : String) : Error := { fault := .invalidType .unit what }

/-- Converts a datum, failing with `misshapen` when it does not convert. -/
def convert (what : String) (f : Datum → Option α) (d : Datum) : Except Error α :=
  match f d with
  | some a => .ok a
  | none => .error (misshapen what)

namespace Snapshot

/-- A price map as a JSON object keyed by decimal prices. -/
def mapValue (entries : List (UInt64 × List Order)) : Value :=
  .object (entries.map fun (p, os) => (toString p.toNat, .array (os.map Order.toValue)))

/-- A snapshot as a JSON object. -/
def toValue (s : Snapshot) : Value :=
  .object [("limit_ask", mapValue s.asks), ("limit_bid", mapValue s.bids),
    ("stop_ask", mapValue s.stopAsks), ("stop_bid", mapValue s.stopBids),
    ("history", .array (s.history.map Order.toValue)), ("next_order_id", .word s.nextId)]

/-- The shape of a price map. -/
def mapShape : Shape := .byPrice (.many Order.shape)

/-- The shape of a snapshot. -/
def shape : Shape :=
  .record "BookSnapshot" [("limit_ask", mapShape), ("limit_bid", mapShape),
    ("stop_ask", mapShape), ("stop_bid", mapShape), ("history", .many Order.shape),
    ("next_order_id", .word)]

/-- The orders of a datum of shape `many Order.shape`. -/
def ordersOf : Datum → Option (List Order)
  | .many items => items.mapM Order.ofDatum
  | _ => none

/-- The price map of a datum of `mapShape`. -/
def mapOf : Datum → Option (List (UInt64 × List Order))
  | .byPrice entries => entries.mapM fun (p, d) => do return (p, ← ordersOf d)
  | _ => none

/-- The snapshot a datum of `Snapshot.shape` describes. -/
def ofDatum : Datum → Option Snapshot
  | .record [a, b, sa, sb, h, .word n] =>
    do return { asks := ← mapOf a, bids := ← mapOf b, stopAsks := ← mapOf sa,
                stopBids := ← mapOf sb, history := ← ordersOf h, nextId := n }
  | _ => none

/-- Reads a snapshot from a JSON value. -/
def ofValue (v : Value) : Except Error Snapshot := do
  convert "struct BookSnapshot" ofDatum (← Decode.value shape v)

/-- Reads a snapshot file's text. -/
def ofText (text : String) : Except Error Snapshot := do
  convert "struct BookSnapshot" ofDatum (← Decode.text .stream shape text)

/-- The text a snapshot file holds: the snapshot, pretty. -/
def fileText (s : Snapshot) : String := s.toValue.pretty

end Snapshot

/-- Reads an order from a JSON value. -/
def Order.ofValue (v : Value) : Except Error Order := do
  convert "struct Order" Order.ofDatum (← Decode.value Order.shape v)

/-- Reads a list of orders from a JSON value. -/
def Order.listOfValue (v : Value) : Except Error (List Order) := do
  convert "a sequence" Snapshot.ordersOf (← Decode.value (.many Order.shape) v)

/-- Reads a side from a JSON value. -/
def Side.ofValue (v : Value) : Except Error Side := do
  match ← Decode.value Side.shape v with
  | .tag i => match Side.ofIndex i with
    | some s => .ok s
    | none => .error (misshapen "enum OrderSide")
  | _ => .error (misshapen "enum OrderSide")

end Bourse
