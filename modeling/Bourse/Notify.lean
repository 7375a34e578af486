import Bourse.Book.Wire
import Bourse.Net.Address
/-!
# Fill notifications

Users may register a socket address for fill notifications. Each fill of a registered user
queues one datagram for that address: `{"notification":"closedTrades","trades":[trade]}`
with the trade `{"orderId","type","orderType","size","price","timestamp"}` (`type` is the
side, `orderType` the kind). Fills of users without an address are skipped, and a
notification that finds the queue full is dropped. Draining hands out the queue in order.
-/

namespace Bourse

open Json Net

/-- A notification on its way: where it goes and what it says. -/
structure Datagram where
  target : SocketAddr
  payload : Value

/-- Registered addresses and the bounded queue of pending datagrams. -/
structure Notifier where
  addresses : List (String × SocketAddr)
  queue : List Datagram
  capacity : Nat

namespace Notifier

/-- A notifier without addresses and with an empty queue of a capacity. -/
def empty (capacity : Nat) : Notifier := { addresses := [], queue := [], capacity }

/-- The registered address of a user. -/
def addressOf (n : Notifier) (user : String) : Option SocketAddr :=
  (n.addresses.find? (·.1 == user)).map (·.2)

/-- Registers (or replaces) the address of a user. -/
def register (n : Notifier) (user : String) (a : SocketAddr) : Notifier :=
  { n with addresses := (n.addresses.filter (·.1 != user)) ++ [(user, a)] }

/-- Forgets the address of a user. -/
def unregister (n : Notifier) (user : String) : Notifier :=
  { n with addresses := n.addresses.filter (·.1 != user) }

/-- The notification of one executed order. -/
def payloadOf (o : Order) : Value :=
  .object [("notification", .string "closedTrades"),
    ("trades", .array [.object [("orderId", .word o.id), ("type", .string o.side.tag),
      ("orderType", .string o.kind.tag), ("size", .word o.size), ("price", .word o.price),
      ("timestamp", .word o.timestamp)]])]

/-- Notifies a user of a fill. -/
def notify (n : Notifier) (user : String) (o : Order) : Notifier :=
  match n.addressOf user with
  | none => n
  | some target =>
    if n.queue.length < n.capacity then
      { n with queue := n.queue ++ [{ target, payload := payloadOf o }] }
    else n

/-- Notifies fills in order. -/
def notifyAll (n : Notifier) (fills : List Fill) : Notifier :=
  fills.foldl (fun n f => n.notify f.user f.order) n

/-- Takes every pending datagram. -/
def drain (n : Notifier) : Notifier × List Datagram := ({ n with queue := [] }, n.queue)

end Notifier

end Bourse
