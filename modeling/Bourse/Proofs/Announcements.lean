import Bourse.Proofs.Calls

/-!
# Announcements mirror the history

The book announces a fill at exactly one kind of place: where it logs an executed order.
`Book.execute` logs the makers taken whole and then the order itself, and announces the same
orders, in the same order, each to its own owner (`Order.fill`).  Everything else the book
does either logs nothing and announces nothing (resting inserts, cancels, a release, a stop
that cannot trade) or is a sequence of executions.

* `execute_announces`, `stopTurn_announces`, `cascade_announces` and `market_announces`: from
  one execution up to a whole market order with its cascade, the fills announced are the
  orders appended to the history, mapped through `Order.fill`;
* `Exchange.announced` is what one call announces and `Exchange.announcements` what a run
  announces; `perform_announces` and `announcements_append` carry the law over to calls and
  runs;
* `fills_mirror_history`: for every book and every trading call, and along every run of the
  exchange since its last restore, the announcements are the history appended.
-/

namespace Bourse

namespace Book

/-- What an announcement law says of a step from `b` to `b'` announcing `fs`: the history
grows by some orders, and the fills are those orders, announced to their owners. -/
def Announces (b b' : Book) (fs : List Fill) : Prop :=
  ∃ logged, b'.history = b.history ++ logged ∧ fs = logged.map Order.fill

theorem Announces.refl (b : Book) : Announces b b [] := ⟨[], by simp, rfl⟩

/-- Announcements compose along consecutive steps. -/
theorem Announces.trans {b₁ b₂ b₃ : Book} {fs₁ fs₂ : List Fill} (h₁ : Announces b₁ b₂ fs₁)
    (h₂ : Announces b₂ b₃ fs₂) : Announces b₁ b₃ (fs₁ ++ fs₂) := by
  obtain ⟨l₁, hh₁, rfl⟩ := h₁
  obtain ⟨l₂, hh₂, rfl⟩ := h₂
  exact ⟨l₁ ++ l₂, by rw [hh₂, hh₁, List.append_assoc], by simp⟩

/-- A step that leaves the history alone and announces nothing. -/
theorem Announces.of_history_eq {b b' : Book} (h : b'.history = b.history) : Announces b b' [] :=
  ⟨[], by simp [h], rfl⟩

/-- **One execution announces what it logs**: the makers taken whole, then the order. -/
theorem execute_announces {b : Book} {o : Order} {clock : UInt64} {drained : Bool} {b' : Book}
    {fs : List Fill} (hx : b.execute o clock = some (drained, b', fs)) : Announces b b' fs := by
  obtain ⟨price, b₁, makers, hm, rfl, rfl⟩ := execute_eq_some hx
  obtain ⟨l, -, -, -, -, -, rfl⟩ := matchBest_eq_some hm
  exact ⟨makers ++ [{ o with price, timestamp := stampOf clock }], by simp, rfl⟩

/-- One turn of the stop loop announces what it logs; a stop that cannot trade announces
nothing, and the release after a drain logs nothing. -/
theorem stopTurn_announces (clock : UInt64) (b : Book) (stop : Order)
    (pending : List (List Order)) :
    Announces b (stopTurn clock b stop pending).1 (stopTurn clock b stop pending).2.2 := by
  rcases stopTurn_cases clock b stop pending with ⟨-, heq⟩ | ⟨b', fs, hx, heq⟩ | ⟨b', fs, hx, heq⟩ <;>
    rw [heq]
  · exact Announces.refl b
  · exact execute_announces hx
  · have hrel := Announces.of_history_eq (release_accounting b' stop.side.opposite).2.2
    simpa using (execute_announces hx).trans hrel

/-- **A cascade announces what it logs.** -/
theorem cascade_announces (b : Book) (s : Side) (clock : UInt64) :
    Announces b (b.cascade s clock).1 (b.cascade s clock).2 := by
  -- the loop keeps the law between the book it started from and the fills so far
  obtain ⟨_, h⟩ := runStops_invariant clock (fun b' _ fills => Announces b b' fills)
    (fun _ _ _ h => h)
    (fun b₁ stop group rest fills h => h.trans (stopTurn_announces clock b₁ stop _)) _
    (b.release s).1 (pushGroup (b.release s).2 []) []
    (Announces.of_history_eq (release_accounting b s).2.2)
  exact h

/-- **A market order announces what it logs**, cascade included. -/
theorem market_announces {b b' : Book} {id : UInt64} {side : Side} {size : UInt64}
    {user : String} {clock : UInt64} {fs : List Fill}
    (hm : b.market id side size user clock = some (b', fs)) : Announces b b' fs := by
  unfold market at hm
  split at hm
  · cases hm
  · rename_i b₁ fs₁ hx
    simp only [Option.some.injEq, Prod.mk.injEq] at hm
    obtain ⟨rfl, rfl⟩ := hm
    exact execute_announces hx
  · rename_i b₁ fs₁ hx
    simp only [Option.some.injEq, Prod.mk.injEq] at hm
    obtain ⟨rfl, rfl⟩ := hm
    exact (execute_announces hx).trans (cascade_announces b₁ side.opposite clock)

end Book

namespace Exchange

/-- The fills a call announces: an accepted market order announces the fills of its
execution and cascade; no other call announces any. -/
def announced (e : Exchange) : Call → List Fill
  | .market side size user =>
    match e.market side size user with
    | .ok (_, fills) _ => fills
    | .error _ _ => []
  | _ => []

/-- The fills a run of calls announces, call after call. -/
def announcements (e : Exchange) : List Call → List Fill
  | [] => []
  | c :: calls => e.announced c ++ (e.perform c).announcements calls

@[simp] theorem announcements_nil (e : Exchange) : e.announcements [] = [] := rfl

@[simp] theorem announcements_cons (e : Exchange) (c : Call) (calls : List Call) :
    e.announcements (c :: calls) = e.announced c ++ (e.perform c).announcements calls := rfl

theorem announcements_append (e : Exchange) (p q : List Call) :
    e.announcements (p ++ q) = e.announcements p ++ (e.run p).announcements q := by
  induction p generalizing e with
  | nil => rfl
  | cons c p ih =>
    simp only [List.cons_append, announcements_cons, ih, List.append_assoc]
    rfl

/-- **A call announces what it logs**, for every call but a restore. -/
theorem perform_announces (e : Exchange) {c : Call} (hc : ∀ s, c ≠ .restore s) :
    Book.Announces e.book (e.perform c).book (e.announced c) := by
  -- a refused call changes nothing; every accepted call but a market order logs nothing
  cases hacc : e.accepts c
  · rw [perform_of_refused hacc]
    cases c
    case market side size user =>
      obtain ⟨err, e', h⟩ := EStateM.Result.eq_error_of_toBool hacc
      simpa [announced, h] using Book.Announces.refl e.book
    all_goals exact Book.Announces.refl e.book
  cases c with
  | limit side size price user =>
    obtain ⟨a, e', h⟩ := EStateM.Result.eq_ok_of_toBool hacc
    simp only [perform, h, EStateM.Result.state, announced]
    rw [(insert_eq_ok h).2.2.1]
    exact Book.Announces.of_history_eq (Book.insertLimit_accounting _ _).2.1
  | stop side size trigger user =>
    obtain ⟨a, e', h⟩ := EStateM.Result.eq_ok_of_toBool hacc
    simp only [perform, h, EStateM.Result.state, announced]
    rw [(insert_eq_ok h).2.2.1]
    exact Book.Announces.of_history_eq (Book.insertStop_accounting _ _).2.1
  | market side size user =>
    obtain ⟨⟨a, fs⟩, e', h⟩ := EStateM.Result.eq_ok_of_toBool hacc
    simp only [perform, h, EStateM.Result.state, announced]
    rcases (market_eq_ok h).2.2 with ⟨-, hb, -, rfl⟩ | ⟨hm, -⟩
    · rw [hb]; exact Book.Announces.refl _
    · exact Book.market_announces hm
  | cancel id user =>
    obtain ⟨a, e', h⟩ := EStateM.Result.eq_ok_of_toBool hacc
    obtain ⟨-, o, hcan⟩ := cancel_eq_ok h
    simp only [perform, h, EStateM.Result.state, announced]
    exact Book.Announces.of_history_eq (Book.cancel?_accounting hcan).2.2.1
  | priceHistory code user =>
    obtain ⟨days, e', h⟩ := EStateM.Result.eq_ok_of_toBool hacc
    simp only [perform, h, EStateM.Result.state, announced]
    rw [(priceHistory_eq_ok h).1]
    exact Book.Announces.refl _
  | persist =>
    cases h : e.persist with
    | error err => simp [accepts, h, Except.toBool] at hacc
    | ok e' =>
      simp only [perform, h, announced]
      rw [(persist_eq_ok h).1]
      exact Book.Announces.refl _
  | restore s => exact absurd rfl (hc s)
  | setClock now => exact Book.Announces.refl e.book

/-- **A run announces what it logs.**  Along calls without a restore, the fills announced
are the orders appended to the history. -/
theorem run_announces (e : Exchange) {calls : List Call} (hno : ∀ s, Call.restore s ∉ calls) :
    Book.Announces e.book (e.run calls).book (e.announcements calls) := by
  induction calls generalizing e with
  | nil => exact Book.Announces.refl e.book
  | cons c calls ih =>
    have hc : ∀ s, c ≠ .restore s := by
      rintro s rfl
      exact hno s List.mem_cons_self
    exact (perform_announces e hc).trans
      (ih (e.perform c) fun s hs => hno s (List.mem_cons_of_mem _ hs))

/-- **Announcements mirror the history.**  On every book, a market order that executes
announces exactly the orders it appends to the history (the makers taken whole, the order
itself, and every stop its cascade runs with that stop's makers), each to its own owner and in
the order logged; a stop that cannot trade, resting inserts and cancels log nothing and
announce nothing.  Along every run of the exchange, the fills announced after a point that no
restore follows are the orders appended to the history after it: from a new exchange,
everything logged, and after the last restore, which replaces the history and announces
nothing, everything logged since. -/
theorem fills_mirror_history :
    (∀ (b b' : Book) id side size user clock fs, b.market id side size user clock = some (b', fs) →
      ∃ logged, b'.history = b.history ++ logged ∧ fs = logged.map Order.fill) ∧
    (∀ (b : Book) o, (b.insertLimit o).history = b.history ∧ (b.insertStop o).history = b.history) ∧
    (∀ (b b' : Book) id o, b.cancel? id = some (o, b') → b'.history = b.history) ∧
    (∀ (e : Exchange) (pre post : List Call), (∀ s, Call.restore s ∉ post) →
      ∃ logged, (e.run (pre ++ post)).book.history = (e.run pre).book.history ++ logged ∧
        e.announcements (pre ++ post) = e.announcements pre ++ logged.map Order.fill) := by
  refine ⟨fun b b' id side size user clock fs hm => Book.market_announces hm,
    fun b o => ⟨(Book.insertLimit_accounting b o).2.1, (Book.insertStop_accounting b o).2.1⟩,
    fun b b' id o hc => (Book.cancel?_accounting hc).2.2.1, fun e pre post hno => ?_⟩
  obtain ⟨logged, hh, hfs⟩ := run_announces (e.run pre) hno
  exact ⟨logged, by rw [run_append, hh], by rw [announcements_append, hfs]⟩

/-- A bid rests and a sell of its size meets it. -/
def restThenSell : List Call := [.limit .bid 5 100 "alice", .market .ask 5 "bob"]

/-- On a new exchange the sell logs two orders, the bid it fills and itself, and announces
their two fills. -/
theorem fills_mirror_history_rest_then_sell :
    ((new (Sessions.empty 0) 0).run restThenSell).book.history.length = 2 ∧
      (new (Sessions.empty 0) 0).announcements restThenSell =
        ((new (Sessions.empty 0) 0).run restThenSell).book.history.map Order.fill := by
  have hno : ∀ s, Call.restore s ∉ restThenSell := by simp [restThenSell]
  obtain ⟨logged, hh, hfs⟩ :=
    fills_mirror_history.2.2.2 (new (Sessions.empty 0) 0) [] restThenSell hno
  -- before any call the history is empty and nothing was announced
  have hstart : ((new (Sessions.empty 0) 0).run []).book.history = [] := rfl
  rw [List.nil_append, hstart, List.nil_append] at hh
  rw [List.nil_append, announcements_nil, List.nil_append] at hfs
  exact ⟨by decide +kernel, by rw [hfs, hh]⟩

end Exchange

end Bourse
