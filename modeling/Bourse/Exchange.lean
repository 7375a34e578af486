import Bourse.Book.Match
import Bourse.Daily
import Bourse.Session
import Bourse.Store
/-!
# The exchange

An `Exchange` is what traders talk to: the book, the id sequence, the session table, the
clock and, when it has one, the snapshot file.

A call runs as a computation on the state that may be refused (`EStateM`): its steps are
made in the order the exchange makes them, and what a step changed stays changed when a
later step refuses, as a taken id or a refreshed session would. The checks come first.

Every accepted order takes the next id, a market order that finds no liquidity included;
ids wrap after the largest word. An order of size 0 is refused before a price of 0, and a
refusal takes no id. Every trading call answers with an `Ack`: the result and the caller's
session refreshed after the call (`none` for a caller without a session).

A cancel is refused, in this order, for an id that is not known, an order of another user
and an executed order; an order that is known but rests nowhere is not found either.

Restoring a snapshot replaces the book and raises the id sequence to the snapshot's floor,
never lowering it.
-/

namespace Bourse

/-- Why an order was refused or could not be cancelled. -/
inductive OrderError where
  | invalidSize
  | invalidPrice
  | notFound (id : UInt64)
  | notOwner (id : UInt64)
  | alreadyExecuted (id : UInt64)
  deriving DecidableEq, Repr

namespace OrderError

/-- The message of a refusal. -/
def message : OrderError → String
  | invalidSize => "Order size must be greater than 0"
  | invalidPrice => "Order price must be greater than 0"
  | notFound id => "Order not found: " ++ toString id
  | notOwner id => "Order " ++ toString id ++ " belongs to another user"
  | alreadyExecuted id => "Order " ++ toString id ++ " has already been executed"

/-- The name of the kind of refusal. -/
def kind : OrderError → String
  | invalidSize => "InvalidSize"
  | invalidPrice => "InvalidPrice"
  | notFound _ => "NotFound"
  | notOwner _ => "NotOwner"
  | alreadyExecuted _ => "AlreadyExecuted"

end OrderError

/-- The answer to a trading call with the caller's refreshed session. -/
structure Ack (α : Type) where
  value : α
  session : Option UInt64
  deriving DecidableEq, Repr

/-- The exchange state. -/
structure Exchange where
  book : Book
  nextId : UInt64
  sessions : Sessions
  clock : UInt64
  store : Option SnapshotFile
  deriving Repr

namespace Exchange

/-- An exchange with an empty book and no snapshot file. -/
def new (sessions : Sessions) (clock : UInt64) : Exchange :=
  { book := .empty, nextId := 0, sessions, clock, store := none }

/-- Checks an order's size, then its price when it has one. -/
def validate (size : UInt64) (price : Option UInt64) : Except OrderError Unit :=
  if size = 0 then .error .invalidSize
  else if price = some 0 then .error .invalidPrice
  else .ok ()

/-- Refreshes the session of `user` at the clock; returns the new time, `none` for a user
without a session. -/
def refresh (user : String) : EStateM ε Exchange (Option UInt64) :=
  modifyGet fun e =>
    let (sessions, session) := e.sessions.touch user e.clock
    (session, { e with sessions })

/-- Answers a call of `user` with `value`, refreshing the user's session. -/
def ack (value : α) (user : String) : EStateM ε Exchange (Ack α) := do
  let session ← refresh user
  return { value, session }

/-- Takes the next id, moving the sequence on. -/
def takeId : EStateM ε Exchange UInt64 :=
  modifyGet fun e => (e.nextId, { e with nextId := e.nextId + 1 })

/-- Places an order of the given size and price: checks both, takes the next id, files the
order `make` builds under it with `file` and refreshes the caller's session.  Limit and stop
orders differ only in the order built and the ladder it goes to. -/
def insert (e : Exchange) (file : Book → Order → Book) (make : UInt64 → Order)
    (size price : UInt64) (user : String) : EStateM.Result OrderError Exchange (Ack UInt64) :=
  e |> EStateM.run do
    ofExcept (validate size (some price))
    let id ← takeId
    modify fun e => { e with book := file e.book (make id) }
    ack id user

/-- Places a limit order. -/
def limit (e : Exchange) (side : Side) (size price : UInt64) (user : String) :
    EStateM.Result OrderError Exchange (Ack UInt64) :=
  e.insert Book.insertLimit (Order.limit · side size price user) size price user

/-- Places a stop order with its trigger price. -/
def stop (e : Exchange) (side : Side) (size trigger : UInt64) (user : String) :
    EStateM.Result OrderError Exchange (Ack UInt64) :=
  e.insert Book.insertStop (Order.stop · side size trigger user) size trigger user

/-- Places a market order; the value is its id when it executed. Also returns the fills
announced. -/
def market (e : Exchange) (side : Side) (size : UInt64) (user : String) :
    EStateM.Result OrderError Exchange (Ack (Option UInt64) × List Fill) :=
  e |> EStateM.run do
    ofExcept (validate size none)
    let id ← takeId
    let e ← get
    match e.book.market id side size user e.clock with
    | none => return (← ack none user, [])
    | some (book, fills) =>
      set { e with book }
      return (← ack (some id) user, fills)

/-- The order of an id: resting, else executed. -/
def order? (e : Exchange) (id : UInt64) : Option Order := e.book.find? id

/-- Cancels a resting order of `user`. -/
def cancel (e : Exchange) (id : UInt64) (user : String) :
    EStateM.Result OrderError Exchange (Ack UInt64) :=
  e |> EStateM.run do
    let e ← get
    let some o := e.order? id | throw (.notFound id)
    if o.user != user then throw (.notOwner id)
    if o.executed then throw (.alreadyExecuted id)
    let some (_, book) := e.book.cancel? id | throw (.notFound id)
    set { e with book }
    ack id user

/-- The daily summaries of a month that has begun; refreshes the session of `user` when
the month is accepted. -/
def priceHistory (e : Exchange) (code user : String) :
    EStateM.Result MonthError Exchange (List DaySummary) :=
  e |> EStateM.run do
    let e ← get
    let m ← ofExcept (MonthCode.parseNotFuture code e.clock)
    let days := aggregateMonth e.book.history m
    discard (refresh user)
    return days

/-- The snapshot of the exchange: the book and the next id. -/
def snapshot (e : Exchange) : Snapshot := e.book.capture e.nextId

/-- Replaces the book by a snapshot's and raises the id sequence to its floor. -/
def restore (e : Exchange) (s : Snapshot) : Exchange :=
  { e with book := Book.restore s, nextId := max e.nextId s.floor }

/-- Saves the snapshot to the file, when there is one. -/
def persist (e : Exchange) : Except StoreError Exchange :=
  match e.store with
  | none => .ok e
  | some f => do
    let f ← f.save e.snapshot
    return { e with store := some f }

/-- An exchange on a snapshot file, restored from it; a file that is missing or cannot be
loaded starts an empty book. -/
def onFile (sessions : Sessions) (clock : UInt64) (f : SnapshotFile) : Exchange :=
  let e := { new sessions clock with store := some f }
  match f.load with
  | .ok (some s) => e.restore s
  | _ => e

end Exchange

end Bourse
