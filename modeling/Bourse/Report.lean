import Bourse.Book.Wire
import Bourse.Daily
/-!
# Reports as JSON

The JSON forms of what the exchange reports besides orders and snapshots: the depth of the
book (best levels first, each a price and the size resting there), a price level with its
queue, a fill with the user it is announced to, and the daily price summaries of a month.
-/

namespace Bourse

open Json

/-- A depth level as `{"price","size"}`. -/
def DepthLevel.toValue (l : DepthLevel) : Value :=
  .object [("price", .word l.price), ("size", .nat l.size)]

/-- The depth as `{"bids","asks"}`. -/
def Depth.toValue (d : Depth) : Value :=
  .object [("bids", .array (d.bids.map DepthLevel.toValue)),
    ("asks", .array (d.asks.map DepthLevel.toValue))]

/-- A price level as `{"total_size","len","is_empty","orders"}`. -/
def Level.toValue (l : Level) : Value :=
  .object [("total_size", .nat l.total), ("len", .nat l.length),
    ("is_empty", .bool l.queue.isEmpty), ("orders", .array (l.queue.map Order.toValue))]

/-- A fill as `{"user","order"}`. -/
def Fill.toValue (f : Fill) : Value :=
  .object [("user", .string f.user), ("order", f.order.toValue)]

/-- A day's summary as `{"day_of_month","opening_price","closing_price","highest_price",
"lowest_price","fulfilled_orders"}`. -/
def DaySummary.toValue (d : DaySummary) : Value :=
  .object [("day_of_month", .nat d.day), ("opening_price", .word d.opening),
    ("closing_price", .word d.closing), ("highest_price", .word d.highest),
    ("lowest_price", .word d.lowest), ("fulfilled_orders", .array (d.orders.map Order.toValue))]

end Bourse
