import Mathlib.Data.List.Induction
import Bourse.Exchange
import Bourse.Proofs.Accounting

/-!
# Runs of calls

The exchange changes only through its calls: the three inserts, a cancel, a price-history
query (which refreshes the caller's session), a save to the snapshot file, a restore, and
the clock moving on.  A call returns an answer or a refusal, each with the state it leaves
(`EStateM.Result.state`); `Exchange.perform` is that state and `Exchange.run` makes calls in
order.  Queries that only read the state (`order?`, `snapshot`, the depth) need no step.

* `insert_eq`, `market_eq`, `cancel_eq` and `priceHistory_eq` compute what a call returns and
  leaves from what its steps do (`run_takeId`, `run_ack`): every check a call can fail comes
  before its first change, so `perform_of_refused`, a refused call leaves the state it was
  made in;
* `insert_eq_ok`, `market_eq_ok` and `cancel_eq_ok` take an accepted call apart;
* `perform_cases` sums them up: a call does one of five things to the book and the id
  sequence;
* `perform_accounting` is the conservation law of one call other than a restore: the
  resting ids after it and the ids it logged are among the resting ids before and, for an
  accepted insert, the id it took;
* `run_invariant` turns a property that every call of a run keeps into one that holds after
  every prefix of the run.
-/

/-- Whether a computation returned rather than failed. -/
def EStateM.Result.toBool : EStateM.Result ε σ α → Bool
  | .ok _ _ => true
  | .error _ _ => false

/-- The state a computation leaves, whether it returned or failed. -/
def EStateM.Result.state : EStateM.Result ε σ α → σ
  | .ok _ s => s
  | .error _ s => s

theorem EStateM.Result.eq_ok_of_toBool {r : EStateM.Result ε σ α} (h : r.toBool = true) :
    ∃ a s, r = .ok a s := by
  cases r with
  | ok a s => exact ⟨a, s, rfl⟩
  | error => cases h

theorem EStateM.Result.eq_error_of_toBool {r : EStateM.Result ε σ α} (h : r.toBool = false) :
    ∃ err s, r = .error err s := by
  cases r with
  | ok => cases h
  | error err s => exact ⟨err, s, rfl⟩

namespace Bourse

/-- A call that can change the exchange's state. -/
inductive Call where
  | limit (side : Side) (size price : UInt64) (user : String)
  | stop (side : Side) (size trigger : UInt64) (user : String)
  | market (side : Side) (size : UInt64) (user : String)
  | cancel (id : UInt64) (user : String)
  | priceHistory (code user : String)
  | persist
  | restore (s : Snapshot)
  | setClock (now : UInt64)
  deriving DecidableEq, Repr

namespace Book

/-- The ids of the resting orders and of the history. -/
def ids (b : Book) : List UInt64 := b.restingIds ++ b.history.map (·.id)

end Book

namespace Exchange

/-- The state after one call, accepted or refused. -/
def perform (e : Exchange) : Call → Exchange
  | .limit side size price user => (e.limit side size price user).state
  | .stop side size trigger user => (e.stop side size trigger user).state
  | .market side size user => (e.market side size user).state
  | .cancel id user => (e.cancel id user).state
  | .priceHistory code user => (e.priceHistory code user).state
  | .persist =>
    match e.persist with
    | .ok e' => e'
    | .error _ => e
  | .restore s => e.restore s
  | .setClock now => { e with clock := now }

/-- The state after a list of calls, made in order. -/
def run (e : Exchange) (calls : List Call) : Exchange := calls.foldl perform e

/-- Whether the exchange accepts a call.  Restores and clock moves are never refused. -/
def accepts (e : Exchange) : Call → Bool
  | .limit side size price user => (e.limit side size price user).toBool
  | .stop side size trigger user => (e.stop side size trigger user).toBool
  | .market side size user => (e.market side size user).toBool
  | .cancel id user => (e.cancel id user).toBool
  | .priceHistory code user => (e.priceHistory code user).toBool
  | .persist => e.persist.toBool
  | .restore _ | .setClock _ => true

/-- Whether a call is an insert the exchange accepts; such a call takes an id. -/
def takesId (e : Exchange) : Call → Bool
  | .limit side size price user => (e.limit side size price user).toBool
  | .stop side size trigger user => (e.stop side size trigger user).toBool
  | .market side size user => (e.market side size user).toBool
  | _ => false

/-- The id a call answers with: that of an accepted limit or stop order, and that of a
market order that executed. -/
def handedOut (e : Exchange) : Call → Option UInt64
  | .limit side size price user =>
    match e.limit side size price user with
    | .ok a _ => some a.value
    | .error _ _ => none
  | .stop side size trigger user =>
    match e.stop side size trigger user with
    | .ok a _ => some a.value
    | .error _ _ => none
  | .market side size user =>
    match e.market side size user with
    | .ok (a, _) _ => a.value
    | .error _ _ => none
  | _ => none

/-! ## What each call computes -/

@[simp] theorem run_ofExcept {ε σ α : Type} (x : Except ε α) (s : σ) :
    (ofExcept x : EStateM ε σ α).run s =
      match x with
      | .ok a => .ok a s
      | .error err => .error err s := by
  cases x <;> rfl

@[simp] theorem run_throw_any {ε σ α : Type} (err : ε) (s : σ) :
    (throw err : EStateM ε σ α).run s = .error err s := rfl

@[simp] theorem run_takeId {ε : Type} (e : Exchange) :
    (takeId : EStateM ε Exchange UInt64).run e =
      .ok e.nextId { e with nextId := e.nextId + 1 } := rfl

@[simp] theorem run_ack {ε α : Type} (e : Exchange) (value : α) (user : String) :
    (ack value user : EStateM ε Exchange (Ack α)).run e =
      .ok { value, session := (e.sessions.touch user e.clock).2 }
        { e with sessions := (e.sessions.touch user e.clock).1 } := rfl

/-- **What an insert does.**  It is refused for size 0, then for price 0, before it changes
anything; otherwise it files its order under the next id, moves the sequence on and
refreshes the caller's session. -/
theorem insert_eq (e : Exchange) (file : Book → Order → Book) (make : UInt64 → Order)
    (size price : UInt64) (user : String) :
    e.insert file make size price user =
      if size = 0 then .error .invalidSize e
      else if price = 0 then .error .invalidPrice e
      else .ok { value := e.nextId, session := (e.sessions.touch user e.clock).2 }
        { e with book := file e.book (make e.nextId), nextId := e.nextId + 1,
                 sessions := (e.sessions.touch user e.clock).1 } := by
  by_cases hs : size = 0
  · simp [insert, validate, hs]
  · by_cases hp : price = 0 <;> simp [insert, validate, hs, hp]

/-- **What a market order does.**  It is refused for size 0 before it changes anything;
otherwise it takes the next id whether or not it finds liquidity, executes when it can, and
refreshes the caller's session. -/
theorem market_eq (e : Exchange) (side : Side) (size : UInt64) (user : String) :
    e.market side size user =
      if size = 0 then .error .invalidSize e
      else match e.book.market e.nextId side size user e.clock with
        | none => .ok ({ value := none, session := (e.sessions.touch user e.clock).2 }, [])
            { e with nextId := e.nextId + 1, sessions := (e.sessions.touch user e.clock).1 }
        | some (book, fills) =>
          .ok ({ value := some e.nextId, session := (e.sessions.touch user e.clock).2 }, fills)
            { e with book, nextId := e.nextId + 1,
                     sessions := (e.sessions.touch user e.clock).1 } := by
  by_cases hs : size = 0
  · simp [market, validate, hs]
  · have hv : validate size none = .ok () := by simp [validate, hs]
    simp only [market, hv, hs, if_false, EStateM.run_bind, run_ofExcept, run_takeId,
      EStateM.run_get]
    cases e.book.market e.nextId side size user e.clock <;> rfl

/-- **What a cancel does.**  It looks the order up, checks its owner and its state, and
removes it, refusing at the first check that fails before it changes anything; an accepted
cancel refreshes the caller's session. -/
theorem cancel_eq (e : Exchange) (id : UInt64) (user : String) :
    e.cancel id user =
      match e.order? id with
      | none => .error (.notFound id) e
      | some o =>
        if o.user ≠ user then .error (.notOwner id) e
        else if o.executed then .error (.alreadyExecuted id) e
        else match e.book.cancel? id with
          | none => .error (.notFound id) e
          | some (_, book) => .ok { value := id, session := (e.sessions.touch user e.clock).2 }
              { e with book, sessions := (e.sessions.touch user e.clock).1 } := by
  simp only [cancel, EStateM.run_bind, EStateM.run_get]
  cases e.order? id with
  | none => rfl
  | some o =>
    by_cases hu : o.user = user
    · cases hx : o.executed
      · cases e.book.cancel? id <;> simp [hu, hx]
      · simp [hu, hx]
    · simp [hu]

/-- **What a price-history query does.**  It reads the month before it changes anything,
and refreshes the caller's session once the month is accepted. -/
theorem priceHistory_eq (e : Exchange) (code user : String) :
    e.priceHistory code user =
      match MonthCode.parseNotFuture code e.clock with
      | .error err => .error err e
      | .ok m => .ok (aggregateMonth e.book.history m)
          { e with sessions := (e.sessions.touch user e.clock).1 } := by
  simp only [priceHistory, EStateM.run_bind, EStateM.run_get, run_ofExcept]
  cases MonthCode.parseNotFuture code e.clock <;> rfl

/-! ## Accepted and refused calls -/

theorem insert_eq_ok {e e' : Exchange} {file : Book → Order → Book} {make : UInt64 → Order}
    {size price : UInt64} {user : String} {a : Ack UInt64}
    (h : e.insert file make size price user = .ok a e') :
    size ≠ 0 ∧ price ≠ 0 ∧ e'.book = file e.book (make e.nextId) ∧
      e'.nextId = e.nextId + 1 ∧ a.value = e.nextId := by
  rw [insert_eq] at h
  by_cases hs : size = 0
  · simp [hs] at h
  by_cases hp : price = 0
  · simp [hs, hp] at h
  simp only [hs, hp, if_false, EStateM.Result.ok.injEq] at h
  obtain ⟨rfl, rfl⟩ := h
  exact ⟨hs, hp, rfl, rfl, rfl⟩

/-- **A refused insert leaves no trace**: it is refused for size 0, and then for price 0,
and leaves the state it was made in. -/
theorem insert_eq_error_iff {e e' : Exchange} {file : Book → Order → Book}
    {make : UInt64 → Order} {size price : UInt64} {user : String} {err : OrderError} :
    e.insert file make size price user = .error err e' ↔
      e' = e ∧ ((size = 0 ∧ err = .invalidSize) ∨ (size ≠ 0 ∧ price = 0 ∧ err = .invalidPrice)) := by
  rw [insert_eq]
  by_cases hs : size = 0
  · simp [hs, eq_comm, and_comm]
  · by_cases hp : price = 0 <;> simp [hs, hp, eq_comm, and_comm]

/-- An accepted market order takes the next id whether or not it finds liquidity; it answers
with that id exactly when it executed, and announces nothing when it did not. -/
theorem market_eq_ok {e e' : Exchange} {side : Side} {size : UInt64} {user : String}
    {a : Ack (Option UInt64)} {fs : List Fill} (h : e.market side size user = .ok (a, fs) e') :
    size ≠ 0 ∧ e'.nextId = e.nextId + 1 ∧
      ((e.book.market e.nextId side size user e.clock = none ∧ e'.book = e.book ∧
          a.value = none ∧ fs = []) ∨
        (e.book.market e.nextId side size user e.clock = some (e'.book, fs) ∧
          a.value = some e.nextId)) := by
  rw [market_eq] at h
  by_cases hs : size = 0
  · simp [hs] at h
  simp only [hs, if_false] at h
  split at h
  · rename_i hm
    simp only [EStateM.Result.ok.injEq, Prod.mk.injEq] at h
    obtain ⟨⟨rfl, rfl⟩, rfl⟩ := h
    exact ⟨hs, rfl, Or.inl ⟨hm, rfl, rfl, rfl⟩⟩
  · rename_i book fills hm
    simp only [EStateM.Result.ok.injEq, Prod.mk.injEq] at h
    obtain ⟨⟨rfl, rfl⟩, rfl⟩ := h
    exact ⟨hs, rfl, Or.inr ⟨hm, rfl⟩⟩

/-- A market order is refused only for its size, and then leaves no trace; one that finds
no liquidity is accepted. -/
theorem market_eq_error_iff {e e' : Exchange} {side : Side} {size : UInt64} {user : String}
    {err : OrderError} :
    e.market side size user = .error err e' ↔ e' = e ∧ size = 0 ∧ err = .invalidSize := by
  rw [market_eq]
  by_cases hs : size = 0
  · simp [hs, eq_comm, and_comm]
  · simp only [hs, if_false, false_and, and_false, iff_false]
    split <;> simp

theorem cancel_eq_ok {e e' : Exchange} {id : UInt64} {user : String} {a : Ack UInt64}
    (h : e.cancel id user = .ok a e') :
    e'.nextId = e.nextId ∧ ∃ o, e.book.cancel? id = some (o, e'.book) := by
  rw [cancel_eq] at h
  split at h
  · cases h
  split at h
  · cases h
  split at h
  · cases h
  split at h
  · cases h
  rename_i o book hc
  simp only [EStateM.Result.ok.injEq] at h
  obtain ⟨-, rfl⟩ := h
  exact ⟨rfl, o, hc⟩

/-- A refused cancel leaves no trace; it is refused as not found, not the caller's or
already executed. -/
theorem cancel_eq_error {e e' : Exchange} {id : UInt64} {user : String} {err : OrderError}
    (h : e.cancel id user = .error err e') :
    e' = e ∧ (err = .notFound id ∨ err = .notOwner id ∨ err = .alreadyExecuted id) := by
  rw [cancel_eq] at h
  split at h
  · cases h
    exact ⟨rfl, Or.inl rfl⟩
  split at h
  · cases h
    exact ⟨rfl, Or.inr (Or.inl rfl)⟩
  split at h
  · cases h
    exact ⟨rfl, Or.inr (Or.inr rfl)⟩
  split at h
  · cases h
    exact ⟨rfl, Or.inl rfl⟩
  · cases h

theorem priceHistory_eq_ok {e e' : Exchange} {code user : String} {days : List DaySummary}
    (h : e.priceHistory code user = .ok days e') :
    e'.book = e.book ∧ e'.nextId = e.nextId ∧
      e'.sessions = (e.sessions.touch user e.clock).1 := by
  rw [priceHistory_eq] at h
  split at h
  · cases h
  · simp only [EStateM.Result.ok.injEq] at h
    obtain ⟨-, rfl⟩ := h
    exact ⟨rfl, rfl, rfl⟩

/-- A price-history query is refused exactly when its month code is, and then leaves no
trace. -/
theorem priceHistory_eq_error_iff {e e' : Exchange} {code user : String} {err : MonthError} :
    e.priceHistory code user = .error err e' ↔
      e' = e ∧ MonthCode.parseNotFuture code e.clock = .error err := by
  rw [priceHistory_eq]
  cases MonthCode.parseNotFuture code e.clock <;> simp [eq_comm, and_comm]

theorem persist_eq_ok {e e' : Exchange} (h : e.persist = .ok e') :
    e'.book = e.book ∧ e'.nextId = e.nextId := by
  unfold persist at h
  split at h
  · cases h
    exact ⟨rfl, rfl⟩
  · rename_i f _
    cases hs : f.save e.snapshot with
    | error err => rw [hs] at h; cases h
    | ok f' =>
      rw [hs] at h
      simp only [bind, Except.bind, pure, Except.pure, Except.ok.injEq] at h
      rw [← h]
      exact ⟨rfl, rfl⟩

/-- **A refused call leaves the exchange as it was.**  Every check a call can fail comes
before its first change: an insert checks before it takes an id, a cancel before it removes,
a price-history query before it refreshes the caller's session, and a failed save keeps the
file the exchange had. -/
theorem perform_of_refused {e : Exchange} {c : Call} (h : e.accepts c = false) :
    e.perform c = e := by
  cases c with
  | limit side size price user =>
    obtain ⟨err, e', hr⟩ := EStateM.Result.eq_error_of_toBool h
    simp only [perform, hr, EStateM.Result.state]
    exact (insert_eq_error_iff.1 hr).1
  | stop side size trigger user =>
    obtain ⟨err, e', hr⟩ := EStateM.Result.eq_error_of_toBool h
    simp only [perform, hr, EStateM.Result.state]
    exact (insert_eq_error_iff.1 hr).1
  | market side size user =>
    obtain ⟨err, e', hr⟩ := EStateM.Result.eq_error_of_toBool h
    simp only [perform, hr, EStateM.Result.state]
    exact (market_eq_error_iff.1 hr).1
  | cancel id user =>
    obtain ⟨err, e', hr⟩ := EStateM.Result.eq_error_of_toBool h
    simp only [perform, hr, EStateM.Result.state]
    exact (cancel_eq_error hr).1
  | priceHistory code user =>
    obtain ⟨err, e', hr⟩ := EStateM.Result.eq_error_of_toBool h
    simp only [perform, hr, EStateM.Result.state]
    exact (priceHistory_eq_error_iff.1 hr).1
  | persist =>
    simp only [accepts] at h
    simp only [perform]
    split
    · rename_i e' he
      simp [he, Except.toBool] at h
    · rfl
  | restore s => cases h
  | setClock now => cases h

/-- An insert that takes an id was accepted. -/
theorem accepts_of_takesId {e : Exchange} {c : Call} (h : e.takesId c = true) :
    e.accepts c = true := by
  cases c <;> first | exact h | cases h

/-! ## What one call does -/

/-- **A call does one of five things.**  An accepted limit or stop order rests under the next
id, which moves on; an accepted market order executes under the next id, which moves on; an
accepted cancel takes one resting order out; a restore replaces the book and raises the
sequence to the snapshot's floor; anything else, a refused call included, leaves the book
and the sequence alone. -/
theorem perform_cases (e : Exchange) (c : Call) :
    (∃ o, e.takesId c ∧ o.id = e.nextId ∧ 0 < o.size ∧ o.timestamp = 0 ∧
      (e.perform c).nextId = e.nextId + 1 ∧
      ((e.perform c).book = e.book.insertLimit o ∨ (e.perform c).book = e.book.insertStop o)) ∨
    (∃ side size user, c = .market side size user ∧ e.takesId c ∧
      (e.perform c).nextId = e.nextId + 1 ∧
      ((e.perform c).book = e.book ∨
        ∃ fs, e.book.market e.nextId side size user e.clock = some ((e.perform c).book, fs))) ∨
    (∃ id user o, c = .cancel id user ∧ e.takesId c = false ∧ (e.cancel id user).toBool ∧
      e.book.cancel? id = some (o, (e.perform c).book) ∧ (e.perform c).nextId = e.nextId) ∨
    (∃ s, c = .restore s ∧ e.takesId c = false ∧ (e.perform c).book = Book.restore s ∧
      (e.perform c).nextId = max e.nextId s.floor) ∨
    (e.takesId c = false ∧ (e.perform c).book = e.book ∧ (e.perform c).nextId = e.nextId) := by
  cases hacc : e.accepts c
  · -- a refused call takes no id and leaves the state as it was
    have ht : e.takesId c = false := by
      cases ht : e.takesId c
      · rfl
      · rw [accepts_of_takesId ht] at hacc
        cases hacc
    rw [perform_of_refused hacc]
    exact Or.inr (Or.inr (Or.inr (Or.inr ⟨ht, rfl, rfl⟩)))
  cases c with
  | limit side size price user =>
    obtain ⟨a, e', h⟩ := EStateM.Result.eq_ok_of_toBool hacc
    obtain ⟨hs, -, hb, hn, -⟩ := insert_eq_ok h
    have hp : e.perform (.limit side size price user) = e' := by
      simp only [perform, h, EStateM.Result.state]
    refine Or.inl ⟨Order.limit e.nextId side size price user, hacc, rfl,
      UInt64.pos_iff_ne_zero.2 hs, rfl, ?_, Or.inl ?_⟩ <;> rw [hp]
    · exact hn
    · exact hb
  | stop side size trigger user =>
    obtain ⟨a, e', h⟩ := EStateM.Result.eq_ok_of_toBool hacc
    obtain ⟨hs, -, hb, hn, -⟩ := insert_eq_ok h
    have hp : e.perform (.stop side size trigger user) = e' := by
      simp only [perform, h, EStateM.Result.state]
    refine Or.inl ⟨Order.stop e.nextId side size trigger user, hacc, rfl,
      UInt64.pos_iff_ne_zero.2 hs, rfl, ?_, Or.inr ?_⟩ <;> rw [hp]
    · exact hn
    · exact hb
  | market side size user =>
    obtain ⟨⟨a, fs⟩, e', h⟩ := EStateM.Result.eq_ok_of_toBool hacc
    obtain ⟨-, hn, hm⟩ := market_eq_ok h
    have hp : e.perform (.market side size user) = e' := by
      simp only [perform, h, EStateM.Result.state]
    refine Or.inr (Or.inl ⟨side, size, user, rfl, hacc, ?_, ?_⟩) <;> rw [hp]
    · exact hn
    · rcases hm with ⟨-, hb, -⟩ | ⟨hm, -⟩
      · exact Or.inl hb
      · exact Or.inr ⟨fs, hm⟩
  | cancel id user =>
    obtain ⟨a, e', h⟩ := EStateM.Result.eq_ok_of_toBool hacc
    obtain ⟨hn, o, hc⟩ := cancel_eq_ok h
    have hp : e.perform (.cancel id user) = e' := by
      simp only [perform, h, EStateM.Result.state]
    exact Or.inr (Or.inr (Or.inl ⟨id, user, o, rfl, rfl, hacc, hp ▸ hc, hp ▸ hn⟩))
  | priceHistory code user =>
    obtain ⟨days, e', h⟩ := EStateM.Result.eq_ok_of_toBool hacc
    obtain ⟨hb, hn, -⟩ := priceHistory_eq_ok h
    have hp : e.perform (.priceHistory code user) = e' := by
      simp only [perform, h, EStateM.Result.state]
    exact Or.inr (Or.inr (Or.inr (Or.inr ⟨rfl, hp ▸ hb, hp ▸ hn⟩)))
  | persist =>
    cases h : e.persist with
    | error err => simp [accepts, h, Except.toBool] at hacc
    | ok e' =>
      obtain ⟨hb, hn⟩ := persist_eq_ok h
      have hp : e.perform .persist = e' := by simp [perform, h]
      exact Or.inr (Or.inr (Or.inr (Or.inr ⟨rfl, hp ▸ hb, hp ▸ hn⟩)))
  | restore s => exact Or.inr (Or.inr (Or.inr (Or.inl ⟨s, rfl, rfl, rfl, rfl⟩)))
  | setClock now => exact Or.inr (Or.inr (Or.inr (Or.inr ⟨rfl, rfl, rfl⟩)))

/-- Every call keeps the book well formed. -/
theorem perform_wf {e : Exchange} (hwf : e.book.WF) (c : Call) : (e.perform c).book.WF := by
  rcases perform_cases e c with
    ⟨o, -, -, hs, -, -, hb | hb⟩ | ⟨side, size, user, -, -, -, hb | ⟨fs, hm⟩⟩ |
    ⟨id, user, o, -, -, -, hc, -⟩ | ⟨s, -, -, hb, -⟩ | ⟨-, hb, -⟩
  · rw [hb]; exact Book.insertLimit_wf hwf hs
  · rw [hb]; exact Book.insertStop_wf hwf hs
  · rw [hb]; exact hwf
  · exact Book.market_wf hwf hm
  · exact Book.cancel?_wf hwf hc
  · rw [hb]; exact Book.restore_wf s
  · rw [hb]; exact hwf

/-- **The accounting of one call.**  After any call but a restore the history has grown by
`logged`; the resting ids and the logged ids are among the resting ids before and, for an
accepted insert, the next id, each at most as often; everything logged carries the stamp of
the exchange's clock; every resting order was resting before, possibly reduced, or is the new
order, unexecuted, under the next id; and every order that left a limit ladder was logged or
cancelled by this very call. -/
theorem perform_accounting {e : Exchange} (hwf : e.book.WF) {c : Call}
    (hc : ∀ s, c ≠ .restore s) :
    ∃ logged, (e.perform c).book.history = e.book.history ++ logged ∧
      List.Subperm ((e.perform c).book.restingIds ++ logged.map (·.id))
        (e.book.restingIds ++ if e.takesId c then [e.nextId] else []) ∧
      (∀ x ∈ logged, x.timestamp = stampOf e.clock) ∧
      (∀ x ∈ (e.perform c).book.restingOrders,
        (∃ x₀ ∈ e.book.restingOrders, x.Resized x₀) ∨ (x.id = e.nextId ∧ x.timestamp = 0)) ∧
      (∀ x ∈ e.book.limitOrders, x.id ∈ (e.perform c).book.limitOrders.map (·.id) ∨
        x.id ∈ logged.map (·.id) ∨
        ∃ user, c = .cancel x.id user ∧ (e.cancel x.id user).toBool) := by
  rcases perform_cases e c with
    ⟨o, ht, hid, -, hts, -, hb | hb⟩ | ⟨side, size, user, rfl, ht, -, hb | ⟨fs, hm⟩⟩ |
    ⟨id, user, o, rfl, ht, hok, hcan, -⟩ | ⟨s, rfl, -⟩ | ⟨ht, hb, -⟩
  · -- a limit order comes to rest under the next id
    obtain ⟨hperm, hh, hsub⟩ := Book.insertLimit_accounting e.book o
    rw [hb]
    refine ⟨[], by rw [hh, List.append_nil], ?_, by simp, fun x hx => ?_,
      fun x hx => Or.inl (List.mem_map.2 ⟨x, hsub hx, rfl⟩)⟩
    · rw [ht, if_pos rfl]
      simpa [Book.restingIds, hid] using (hperm.map (·.id)).subperm
    · rcases List.mem_append.1 (hperm.subset hx) with hx | hx
      · exact Or.inl ⟨x, hx, Order.resized_refl x⟩
      · rw [List.mem_singleton.1 hx]
        exact Or.inr ⟨hid, hts⟩
  · -- a stop order comes to rest under the next id
    obtain ⟨hperm, hh, hlim⟩ := Book.insertStop_accounting e.book o
    rw [hb]
    refine ⟨[], by rw [hh, List.append_nil], ?_, by simp, fun x hx => ?_,
      fun x hx => Or.inl (List.mem_map.2 ⟨x, hlim ▸ hx, rfl⟩)⟩
    · rw [ht, if_pos rfl]
      simpa [Book.restingIds, hid] using (hperm.map (·.id)).subperm
    · rcases List.mem_append.1 (hperm.subset hx) with hx | hx
      · exact Or.inl ⟨x, hx, Order.resized_refl x⟩
      · rw [List.mem_singleton.1 hx]
        exact Or.inr ⟨hid, hts⟩
  · -- a market order that found no liquidity: the id is spent, nothing moves
    rw [hb]
    refine ⟨[], by rw [List.append_nil], ?_, by simp,
      fun x hx => Or.inl ⟨x, hx, Order.resized_refl x⟩,
      fun x hx => Or.inl (List.mem_map.2 ⟨x, hx, rfl⟩)⟩
    simpa using (List.sublist_append_left _ _).subperm
  · -- a market order that executed, cascade included
    obtain ⟨logged, hh, hsub, -, hstamp, hres, hmk⟩ := Book.market_accounting hwf hm
    refine ⟨logged, hh, by rw [ht, if_pos rfl]; exact hsub, hstamp,
      fun x hx => Or.inl (hres x hx), fun x hx => (hmk x hx).imp_right Or.inl⟩
  · -- a cancel takes out the one order of its id
    obtain ⟨hid, hperm, hh, hlim⟩ := Book.cancel?_accounting hcan
    refine ⟨[], by rw [hh, List.append_nil], ?_, by simp,
      fun x hx => Or.inl ⟨x, hperm.subset (List.mem_cons_of_mem _ hx), Order.resized_refl x⟩,
      fun x hx => ?_⟩
    · simp only [ht, Bool.false_eq_true, if_false, List.map_nil, List.append_nil]
      exact (((List.sublist_cons_self o _).map (·.id)).subperm).trans (hperm.map (·.id)).subperm
    · rcases hlim x hx with hx | rfl
      · exact Or.inl (List.mem_map.2 ⟨x, hx, rfl⟩)
      · exact Or.inr (Or.inr ⟨user, by rw [hid], by rw [hid]; exact hok⟩)
  · exact absurd rfl (hc s)
  · -- nothing else touches the book
    simp only [hb, ht, Bool.false_eq_true, if_false]
    refine ⟨[], by rw [List.append_nil], by simpa using List.Subperm.refl _, by simp,
      fun x hx => Or.inl ⟨x, hx, Order.resized_refl x⟩,
      fun x hx => Or.inl (List.mem_map.2 ⟨x, hx, rfl⟩)⟩

/-- The ids of the book after any call but a restore are among the ids before and, for an
accepted insert, the next id, each at most as often. -/
theorem ids_perform {e : Exchange} (hwf : e.book.WF) {c : Call} (hc : ∀ s, c ≠ .restore s) :
    List.Subperm (e.perform c).book.ids
      (e.book.ids ++ if e.takesId c then [e.nextId] else []) := by
  obtain ⟨logged, hh, hsub, -⟩ := perform_accounting hwf hc
  -- the logged ids move from behind the history to behind the resting ids
  have hperm : List.Perm (e.perform c).book.ids
      ((e.perform c).book.restingIds ++ logged.map (·.id) ++ e.book.history.map (·.id)) :=
    List.perm_iff_count.2 fun a => by
      simp only [Book.ids, hh, List.map_append, List.count_append]
      omega
  refine hperm.subperm.trans (((List.subperm_append_right _).2 hsub).trans
    (List.Perm.subperm (List.perm_iff_count.2 fun a => ?_)))
  simp only [Book.ids, List.count_append]
  omega

theorem mem_ids_perform {e : Exchange} (hwf : e.book.WF) {c : Call} (hc : ∀ s, c ≠ .restore s)
    {x : UInt64} (hx : x ∈ (e.perform c).book.ids) :
    x ∈ e.book.ids ∨ (x = e.nextId ∧ e.takesId c) := by
  have := (ids_perform hwf hc).subset hx
  cases ht : e.takesId c <;> simp_all

/-- An accepted insert moves the sequence on by one. -/
theorem nextId_perform_of_takesId {e : Exchange} {c : Call} (ht : e.takesId c) :
    (e.perform c).nextId = e.nextId + 1 := by
  rcases perform_cases e c with ⟨-, -, -, -, -, hn, -⟩ | ⟨-, -, -, -, -, hn, -⟩ |
    ⟨-, -, -, -, ht', -⟩ | ⟨-, -, ht', -⟩ | ⟨ht', -⟩
  · exact hn
  · exact hn
  all_goals simp [ht'] at ht

/-- ... by exactly one, when the sequence is not at its last value. -/
theorem nextId_perform_toNat {e : Exchange} {c : Call} (ht : e.takesId c)
    (hwrap : e.nextId.toNat + 1 < UInt64.size) :
    (e.perform c).nextId.toNat = e.nextId.toNat + 1 := by
  rw [nextId_perform_of_takesId ht, UInt64.toNat_add, UInt64.toNat_one]
  exact Nat.mod_eq_of_lt hwrap

/-- Nothing but an accepted insert or a restore moves the sequence. -/
theorem nextId_perform_of_not_takesId {e : Exchange} {c : Call} (ht : e.takesId c = false)
    (hc : ∀ s, c ≠ .restore s) : (e.perform c).nextId = e.nextId := by
  rcases perform_cases e c with ⟨-, ht', -⟩ | ⟨-, -, -, -, ht', -⟩ |
    ⟨-, -, -, -, -, -, -, hn⟩ | ⟨s, rfl, -⟩ | ⟨-, -, hn⟩
  · simp [ht'] at ht
  · simp [ht'] at ht
  · exact hn
  · exact absurd rfl (hc s)
  · exact hn

/-- While it does not wrap, the sequence never goes down. -/
theorem nextId_le_perform {e : Exchange} {c : Call}
    (hwrap : e.takesId c → e.nextId.toNat + 1 < UInt64.size) :
    e.nextId.toNat ≤ (e.perform c).nextId.toNat := by
  cases ht : e.takesId c
  · by_cases hc : ∃ s, c = .restore s
    · obtain ⟨s, rfl⟩ := hc
      show e.nextId.toNat ≤ (max e.nextId s.floor).toNat
      rw [UInt64.toNat_max]
      exact Nat.le_max_left _ _
    · have hn := nextId_perform_of_not_takesId ht fun s h => hc ⟨s, h⟩
      exact Nat.le_of_eq (by rw [hn])
  · rw [nextId_perform_toNat ht (hwrap ht)]
    exact Nat.le_succ _

/-- The id a call answers with is the next id, taken by an accepted insert. -/
theorem handedOut_eq_some {e : Exchange} {c : Call} {x : UInt64} (h : e.handedOut c = some x) :
    x = e.nextId ∧ e.takesId c := by
  cases c with
  | limit side size price user =>
    simp only [handedOut] at h
    split at h
    · rename_i a e' hl
      simp only [Option.some.injEq] at h
      exact ⟨h ▸ (insert_eq_ok hl).2.2.2.2, by simp [takesId, hl, EStateM.Result.toBool]⟩
    · cases h
  | stop side size trigger user =>
    simp only [handedOut] at h
    split at h
    · rename_i a e' hl
      simp only [Option.some.injEq] at h
      exact ⟨h ▸ (insert_eq_ok hl).2.2.2.2, by simp [takesId, hl, EStateM.Result.toBool]⟩
    · cases h
  | market side size user =>
    simp only [handedOut] at h
    split at h
    · rename_i a fs e' hm
      refine ⟨?_, by simp [takesId, hm, EStateM.Result.toBool]⟩
      rcases (market_eq_ok hm).2.2 with ⟨-, -, ha, -⟩ | ⟨-, ha⟩
      · rw [ha] at h; cases h
      · rw [ha] at h; exact (Option.some.inj h).symm
    · cases h
  | _ => cases h

/-! ## Runs -/

@[simp] theorem run_nil (e : Exchange) : e.run [] = e := rfl

@[simp] theorem run_append (e : Exchange) (calls calls' : List Call) :
    e.run (calls ++ calls') = (e.run calls).run calls' :=
  List.foldl_append

@[simp] theorem run_singleton (e : Exchange) (c : Call) : e.run [c] = e.perform c := rfl

/-- **What every call keeps holds all along.**  A property of the state that holds after
the prefix `p` of a run and survives each later call holds after every longer prefix. -/
theorem run_invariant (P : Exchange → Prop) (e₀ : Exchange) {p calls : List Call}
    (h₀ : P (e₀.run p))
    (hstep : ∀ pre c, p ++ pre ++ [c] <+: calls → P (e₀.run (p ++ pre)) →
      P ((e₀.run (p ++ pre)).perform c)) :
    ∀ q, p ++ q <+: calls → P (e₀.run (p ++ q)) := by
  intro q
  induction q using List.reverseRecOn with
  | nil => intro _; simpa using h₀
  | append_singleton q c ih =>
    intro h
    rw [← List.append_assoc] at h
    rw [← List.append_assoc, run_append, run_singleton]
    exact hstep q c h (ih ((List.prefix_append (p ++ q) [c]).trans h))

/-- ... and, from the start, after every prefix of the run. -/
theorem run_invariant_of_start (P : Exchange → Prop) (e₀ : Exchange) {calls : List Call}
    (h₀ : P e₀)
    (hstep : ∀ pre c, pre ++ [c] <+: calls → P (e₀.run pre) → P ((e₀.run pre).perform c)) :
    ∀ pre, pre <+: calls → P (e₀.run pre) := by
  intro pre hpre
  simpa using run_invariant P e₀ (p := []) h₀ (fun pre c h => by simpa using hstep pre c (by simpa using h)) pre
    (by simpa using hpre)

/-- While it does not wrap, the sequence never goes down along a run. -/
theorem nextId_run_mono (e₀ : Exchange) {p calls : List Call}
    (hwrap : ∀ pre c, p ++ pre ++ [c] <+: calls → (e₀.run (p ++ pre)).takesId c →
      (e₀.run (p ++ pre)).nextId.toNat + 1 < UInt64.size) :
    ∀ q, p ++ q <+: calls → (e₀.run p).nextId.toNat ≤ (e₀.run (p ++ q)).nextId.toNat :=
  run_invariant (fun e => (e₀.run p).nextId.toNat ≤ e.nextId.toNat) e₀ (Nat.le_refl _)
    fun pre c h hle => Nat.le_trans hle (nextId_le_perform (hwrap pre c h))

end Exchange

end Bourse
