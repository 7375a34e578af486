import Bourse.Proofs.Accounting
import Bourse.Proofs.Cascade

/-!
# What a market order leaves alone

A buy stop rests among the stop bids and a sell stop among the stop asks: `insertStop` files
an order in the stop ladder of its own side.  Nothing else in the book checks it, and a
restored snapshot may file a stop under the other side.  `Book.StopsOnOwnSide` names the
property, and this file shows that it is what keeps a market order on one side of the book.

A market order of side `side` trades against the limit ladder of the other side.  When it
drains a level there, the stops released are those of the stop ladder of side `side`, and a
released stop runs as a market order of its *own recorded* side.  So with every stop on its
own side, every execution of the cascade trades against the same ladder, every release
takes from the same stop ladder, and two ladders are never touched:

* `Side.AtOrPast`: the order in which a taker of a side meets prices, which is also when a
  stop of that side is triggered;
* `release_spec`, `release_limitSide`, `release_stopSide_self`, `mem_release`,
  `mem_release_kept`: a release takes the triggered stops out of one stop ladder and touches
  nothing else;
* `StopsOnOwnSide.insertLimit`, `.insertStop`, `.cancel?`, `.execute`, `.release`, `.market`:
  every operation of the book but a restore keeps stops on their own side;
* `Framed`, `LoopStep.framed`, `MarketLoop.framed`: along the loop of a market order of side
  `side`, its own limit ladder and the other side's stop ladder stay as they were, and every
  pending stop is of side `side`;
* `market_leaves_own_side`: all of it for whole market orders, and a restored book with a
  stop under the wrong side, where a buy order's cascade trades against the bids.
-/

namespace Bourse

namespace Side

/-- The order in which a taker of side `s` meets prices: a buyer lifts the asks from the
lowest up, a seller hits the bids from the highest down.  `s.AtOrPast p q`: `q` is `p` or
comes after it. -/
def AtOrPast : Side → UInt64 → UInt64 → Prop
  | bid, p, q => p ≤ q
  | ask, p, q => q ≤ p

instance : ∀ s : Side, DecidableRel s.AtOrPast
  | bid => fun p q => inferInstanceAs (Decidable (p ≤ q))
  | ask => fun p q => inferInstanceAs (Decidable (q ≤ p))

@[simp] theorem atOrPast_bid {p q : UInt64} : bid.AtOrPast p q ↔ p ≤ q := Iff.rfl

@[simp] theorem atOrPast_ask {p q : UInt64} : ask.AtOrPast p q ↔ q ≤ p := Iff.rfl

theorem AtOrPast.refl (s : Side) (p : UInt64) : s.AtOrPast p p := by
  cases s <;> exact UInt64.le_refl p

theorem AtOrPast.trans {s : Side} {p q r : UInt64} (h₁ : s.AtOrPast p q) (h₂ : s.AtOrPast q r) :
    s.AtOrPast p r := by
  cases s
  · exact UInt64.le_trans h₁ h₂
  · exact UInt64.le_trans h₂ h₁

end Side

/-- The orders left after a removal rested there before. -/
theorem Ladder.mem_of_remove? {ld : Ladder} {id : UInt64} {o x : Order} {ld' : Ladder}
    (hr : ld.remove? id = some (o, ld')) (hx : x ∈ ld'.orders) : x ∈ ld.orders :=
  (Ladder.orders_remove?_perm hr).subset (List.mem_cons_of_mem o hx)

namespace Book

/-- Every stop rests in the stop ladder of its own side: buy stops among the stop bids, sell
stops among the stop asks. -/
def StopsOnOwnSide (b : Book) : Prop := ∀ s, ∀ o ∈ (b.stopSide s).orders, o.side = s

/-! ## What one step touches -/

/-- An execution leaves both stop ladders alone. -/
theorem execute_stopSide {b : Book} {o : Order} {clock : UInt64} {drained : Bool} {b' : Book}
    {fs : List Fill} (hx : b.execute o clock = some (drained, b', fs)) (s : Side) :
    b'.stopSide s = b.stopSide s := by
  cases s
  · exact execute_stopBids hx
  · exact execute_stopAsks hx

/-- A release touches neither limit ladder. -/
@[simp] theorem release_limitSide (b : Book) (s t : Side) :
    (b.release s).1.limitSide t = b.limitSide t := by
  cases s <;> cases t <;> simp only [release] <;> split <;> rfl

@[simp] theorem release_bestOf (b : Book) (s t : Side) : (b.release s).1.bestOf t = b.bestOf t := by
  have h := release_limitSide b s t
  cases t
  · exact congrArg Ladder.highest h
  · exact congrArg Ladder.lowest h

/-- A release after a drain of side `s` leaves the stop ladder of side `s` alone: the stops it
watches are those of the other side. -/
@[simp] theorem release_stopSide_self (b : Book) (s : Side) :
    (b.release s).1.stopSide s = b.stopSide s := by
  cases s <;> simp only [release] <;> split <;> rfl

/-- A stop insert files the order in the stop ladder of its side and touches the other. -/
theorem insertStop_stopSide (b : Book) (o : Order) (s : Side) :
    (b.insertStop o).stopSide s = if o.side = s then (b.stopSide s).insert o else b.stopSide s := by
  unfold insertStop
  split <;> rename_i h <;> cases s <;> simp [stopSide, h]

theorem WF.stopSide {b : Book} (h : b.WF) (s : Side) : (b.stopSide s).WF := by
  cases s
  · exact h.stopBids
  · exact h.stopAsks

/-- **What a release does.**  After a drain of side `s` the stops watching that ladder are
those of the other side.  When the drained ladder is empty nothing is released.  Otherwise,
with `p` its new best price, the levels of that stop ladder whose trigger `p` has reached, as
a taker of the stops' side meets prices, are handed over with their orders sorted by id, and
the other levels stay. -/
theorem release_spec (b : Book) (s : Side) :
    (b.bestOf s = none ∧ b.release s = (b, [])) ∨
    ∃ p, b.bestOf s = some p ∧
      (b.release s).2 = byId (((b.stopSide s.opposite).levels.filter
        fun e => decide (s.opposite.AtOrPast e.1 p)).flatMap (·.2.queue)) ∧
      ((b.release s).1.stopSide s.opposite).levels =
        (b.stopSide s.opposite).levels.filter fun e => !decide (s.opposite.AtOrPast e.1 p) := by
  cases s with
  | ask =>
    simp only [release]
    split
    · rename_i h
      exact Or.inl ⟨h, rfl⟩
    · rename_i p h
      exact Or.inr ⟨p, h, by rw [Ladder.takeAtOrBelow_eq]; rfl, by rw [Ladder.takeAtOrBelow_eq]; rfl⟩
  | bid =>
    simp only [release]
    split
    · rename_i h
      exact Or.inl ⟨h, rfl⟩
    · rename_i p h
      exact Or.inr ⟨p, h, by rw [Ladder.takeAtOrAbove_eq]; rfl, by rw [Ladder.takeAtOrAbove_eq]; rfl⟩

/-- The stops a release hands over come from the stop ladder of the other side. -/
theorem mem_release {b : Book} {s : Side} {o : Order} (ho : o ∈ (b.release s).2) :
    o ∈ (b.stopSide s.opposite).orders := by
  rcases release_spec b s with ⟨-, heq⟩ | ⟨p, -, htaken, -⟩
  · rw [heq] at ho
    cases ho
  · rw [htaken] at ho
    obtain ⟨e, he, hoe⟩ := List.mem_flatMap.1 ((byId_perm _).subset ho)
    exact Ladder.mem_orders.2 ⟨e, (List.mem_filter.1 he).1, hoe⟩

/-- The stops a release keeps in that ladder rested there before. -/
theorem mem_release_kept {b : Book} {s : Side} {o : Order}
    (ho : o ∈ ((b.release s).1.stopSide s.opposite).orders) : o ∈ (b.stopSide s.opposite).orders := by
  rcases release_spec b s with ⟨-, heq⟩ | ⟨p, -, -, hkept⟩
  · rwa [heq] at ho
  · obtain ⟨e, he, hoe⟩ := Ladder.mem_orders.1 ho
    rw [hkept] at he
    exact Ladder.mem_orders.2 ⟨e, (List.mem_filter.1 he).1, hoe⟩

/-! ## Stops stay on their own side -/

namespace StopsOnOwnSide

theorem empty : Book.empty.StopsOnOwnSide := by
  intro s o ho
  cases s <;> simp [stopSide, Book.empty, Ladder.empty, Ladder.orders] at ho

variable {b : Book} (h : b.StopsOnOwnSide)
include h

theorem insertLimit (o : Order) : (b.insertLimit o).StopsOnOwnSide := by
  intro s x hx
  apply h s x
  unfold Book.insertLimit at hx
  cases s <;> split at hx <;> exact hx

theorem insertStop (o : Order) : (b.insertStop o).StopsOnOwnSide := by
  intro s x hx
  rw [insertStop_stopSide] at hx
  split at hx
  · -- the new stop joins the ladder of its own side
    rename_i hside
    rcases List.mem_append.1 ((Ladder.orders_insert_perm _ o).subset hx) with hx | hx
    · exact h s x hx
    · rw [List.mem_singleton.1 hx, hside]
  · exact h s x hx

theorem cancel? {id : UInt64} {o : Order} {b' : Book} (hc : b.cancel? id = some (o, b')) :
    b'.StopsOnOwnSide := by
  intro s x hx
  apply h s x
  rcases cancel?_eq_some hc with ⟨ld, hr, rfl⟩ | ⟨ld, hr, rfl⟩ | ⟨ld, hr, rfl⟩ | ⟨ld, hr, rfl⟩ <;>
    cases s <;> first | exact hx | exact Ladder.mem_of_remove? hr hx

theorem execute {o : Order} {clock : UInt64} {drained : Bool} {b' : Book} {fs : List Fill}
    (hx : b.execute o clock = some (drained, b', fs)) : b'.StopsOnOwnSide := by
  intro s x hmem
  rw [execute_stopSide hx] at hmem
  exact h s x hmem

theorem release (s : Side) : (b.release s).1.StopsOnOwnSide := by
  intro t x hx
  by_cases hts : t = s
  · subst hts
    rw [release_stopSide_self] at hx
    exact h t x hx
  · -- the other ladder is the one the release takes from
    have ht : t = s.opposite := by
      cases s <;> cases t <;> simp_all [Side.opposite]
    subst ht
    exact h s.opposite x (mem_release_kept hx)

/-- The stops a release hands over are of the side of the ladder they came from. -/
theorem side_of_mem_release {s : Side} {o : Order} (ho : o ∈ (b.release s).2) :
    o.side = s.opposite :=
  h s.opposite o (mem_release ho)

end StopsOnOwnSide

/-! ## Along the stop loop -/

/-- What holds at every state of the stop loop of a market order of side `side` that met the
book `b₀`: the taker's limit ladder and the other side's stop ladder are those of `b₀`, every
stop still rests on its own side, and every pending stop is of side `side`. -/
structure Framed (side : Side) (b₀ : Book) (st : Book × List (List Order)) : Prop where
  limit_eq : st.1.limitSide side = b₀.limitSide side
  stop_eq : st.1.stopSide side.opposite = b₀.stopSide side.opposite
  own : st.1.StopsOnOwnSide
  pending : ∀ o ∈ st.2.flatten, o.side = side

variable (clock : UInt64)

section Framed

variable {side : Side} {b₀ : Book}

/-- An execution of side `side` keeps the frame: it trades against the other limit ladder and
touches no stop. -/
theorem Framed.execute {c : Book} {pending : List (List Order)}
    (h : Framed side b₀ (c, pending)) {o : Order} (ho : o.side = side) {drained : Bool}
    {c' : Book} {fs : List Fill} (hx : c.execute o clock = some (drained, c', fs)) :
    Framed side b₀ (c', pending) where
  limit_eq := by rw [← ho, execute_limitSide_taker hx, ho]; exact h.limit_eq
  stop_eq := by rw [execute_stopSide hx]; exact h.stop_eq
  own := h.own.execute hx
  pending := h.pending

/-- A release after a drain of the other side keeps the frame, and its stops join the stack. -/
theorem Framed.release {c : Book} {pending : List (List Order)}
    (h : Framed side b₀ (c, pending)) :
    Framed side b₀ ((c.release side.opposite).1, pushGroup (c.release side.opposite).2 pending) where
  limit_eq := by rw [release_limitSide]; exact h.limit_eq
  stop_eq := by rw [release_stopSide_self]; exact h.stop_eq
  own := h.own.release side.opposite
  pending := by
    intro o ho
    simp only [flatten_pushGroup, List.mem_append] at ho
    rcases ho with ho | ho
    · simpa using h.own.side_of_mem_release ho
    · exact h.pending o ho

/-- **One step of the loop keeps the frame.**  The stop taken is of side `side`, so it trades
against the other limit ladder and, when it drains a level there, releases from the stop
ladder of side `side` again. -/
theorem LoopStep.framed {st st' : Book × List (List Order)} (hs : LoopStep clock st st')
    (h : Framed side b₀ st) : Framed side b₀ st' := by
  cases hs with
  | pop b rest => exact { h with pending := fun o ho => h.pending o (by simpa using ho) }
  | turn b stop group rest =>
    have hstop : stop.side = side := h.pending stop (by simp)
    have hrest : Framed side b₀ (b, pushGroup group rest) :=
      { h with pending := fun o ho => h.pending o (by simp_all) }
    rcases stopTurn_cases clock b stop (pushGroup group rest) with
      ⟨-, heq⟩ | ⟨b', fs, hx, heq⟩ | ⟨b', fs, hx, heq⟩ <;> rw [heq]
    · exact hrest
    · exact hrest.execute clock hstop hx
    · rw [hstop]
      exact (hrest.execute clock hstop hx).release

/-- Before the market order, the book is in its own frame with nothing pending. -/
theorem Framed.init (hown : b₀.StopsOnOwnSide) : Framed side b₀ (b₀, []) :=
  ⟨rfl, rfl, hown, by simp⟩

/-- The execution of the market order itself, followed by the release of its drain, starts
the loop in the frame. -/
theorem Framed.start {b : Book} (hown : b.StopsOnOwnSide) {id : UInt64} {size : UInt64}
    {user : String} {b₁ : Book} {fs : List Fill}
    (hx : b.execute (Order.market id side size user) clock = some (true, b₁, fs)) :
    Framed side b ((b₁.release side.opposite).1, pushGroup (b₁.release side.opposite).2 []) :=
  ((Framed.init hown).execute clock rfl hx).release

/-- ... so every state of a market order's loop is in the frame of the book it met. -/
theorem MarketLoop.framed {b : Book} (hown : b.StopsOnOwnSide) {id : UInt64} {size : UInt64}
    {user : String} {st : Book × List (List Order)}
    (h : MarketLoop clock b id side size user st) : Framed side b st :=
  MarketLoop.invariant clock (Framed side b) (fun _ _ hx => Framed.start clock hown hx)
    (fun _ _ hs hf => LoopStep.framed clock hs hf) h

/-- The book a market order leaves is in the frame of the book it met. -/
theorem market_framed {b : Book} (hown : b.StopsOnOwnSide) {id : UInt64} {size : UInt64}
    {user : String} {b' : Book} {fs : List Fill}
    (hm : b.market id side size user clock = some (b', fs)) : ∃ pending, Framed side b (b', pending) := by
  rcases market_marketLoop clock hm with ⟨b₁, fs₁, hx, rfl⟩ | ⟨pending, hloop⟩
  · exact ⟨[], (Framed.init hown).execute clock rfl hx⟩
  · exact ⟨pending, hloop.framed clock hown⟩

end Framed

theorem StopsOnOwnSide.market {b : Book} (h : b.StopsOnOwnSide) {id : UInt64} {side : Side}
    {size : UInt64} {user : String} {b' : Book} {fs : List Fill}
    (hm : b.market id side size user clock = some (b', fs)) : b'.StopsOnOwnSide := by
  obtain ⟨_, hf⟩ := market_framed clock h hm
  exact hf.own

/-! ## Whole market orders -/

/-- **A market order leaves the taker's own side alone.**  On a book with every stop on its
own side, a market order of side `side`, with every stop its cascade runs, leaves the limit
ladder of side `side` and the stop ladder of the other side exactly as they were, and every
execution it performs is of side `side`: the released stops trade against the same ladder as
the order.  Resting inserts, market orders and cancels keep every stop on its own side.  A
restore need not: after restoring a snapshot that files a sell stop among the stop bids, a
buy order drains an ask level, releases that stop, and the stop sells into the bids. -/
theorem market_leaves_own_side :
    (∀ (clock : UInt64) (b : Book), b.StopsOnOwnSide →
      ∀ id side size user b' fs, b.market id side size user clock = some (b', fs) →
        b'.limitSide side = b.limitSide side ∧ b'.stopSide side.opposite = b.stopSide side.opposite ∧
        ∀ c o, MarketExec clock b id side size user c o → o.side = side) ∧
    (∀ b : Book, b.StopsOnOwnSide →
      (∀ o, (b.insertLimit o).StopsOnOwnSide) ∧ (∀ o, (b.insertStop o).StopsOnOwnSide) ∧
      (∀ clock id side size user b' fs, b.market id side size user clock = some (b', fs) →
        b'.StopsOnOwnSide) ∧
      (∀ id o b', b.cancel? id = some (o, b') → b'.StopsOnOwnSide)) ∧
    ∃ s : Snapshot, ¬ (restore s).StopsOnOwnSide ∧ ∃ id size user clock b' fs,
      (restore s).market id .bid size user clock = some (b', fs) ∧ b'.bids ≠ (restore s).bids := by
  refine ⟨fun clock b hown id side size user b' fs hm => ?_, fun b hown =>
    ⟨hown.insertLimit, hown.insertStop, fun clock _ _ _ _ _ _ hm => hown.market clock hm,
      fun _ _ _ hc => hown.cancel? hc⟩, ?_⟩
  · obtain ⟨_, hf⟩ := market_framed clock hown hm
    refine ⟨hf.limit_eq, hf.stop_eq, fun c o hexec => ?_⟩
    rcases hexec with ⟨-, rfl⟩ | ⟨group, rest, hloop⟩
    · rfl
    · exact (hloop.framed clock hown).pending o (by simp)
  · -- asks at 100 and 120, a bid of 5 at 90, and a sell stop at 110 filed among the stop bids
    refine ⟨⟨[(100, [Order.limit 1 .ask 1 100 "m"]), (120, [Order.limit 2 .ask 1 120 "m"])],
      [(90, [Order.limit 3 .bid 5 90 "m"])], [], [(110, [Order.stop 4 .ask 2 110 "s"])], [], 5⟩,
      fun h => ?_, 6, 1, "t", 10, ?_⟩
    · have := h .bid (Order.stop 4 .ask 2 110 "s") (by decide +kernel)
      cases this
    · -- the order succeeds and leaves other bids: evaluated, with the snapshot left open
      have key : ∀ s : Snapshot, ((restore s).market 6 .bid 1 "t" 10).any
          (fun r => r.1.bids != (restore s).bids) = true →
          ∃ b' fs, (restore s).market 6 .bid 1 "t" 10 = some (b', fs) ∧ b'.bids ≠ (restore s).bids := by
        intro s h
        obtain ⟨⟨b', fs⟩, hr, hne⟩ := (Option.any_eq_true _ _).1 h
        exact ⟨b', fs, hr, by simpa using hne⟩
      exact key _ (by decide +kernel)

/-- Asks of 1 at 100 and 120, a bid of 5 at 90, a buy stop at 110 and a sell stop at 80. -/
def twoSidedStopBook : Book :=
  ((((empty.insertLimit (Order.limit 1 .ask 1 100 "m")).insertLimit
    (Order.limit 2 .ask 1 120 "m")).insertLimit (Order.limit 3 .bid 5 90 "m")).insertStop
      (Order.stop 4 .bid 1 110 "s")).insertStop (Order.stop 5 .ask 1 80 "s")

/-- A buy of 1 drains the ask at 100 and releases the buy stop; the bids and the stop asks stay
as they were. -/
theorem market_leaves_own_side_stop_released :
    twoSidedStopBook.StopsOnOwnSide ∧
    ∃ b' fs, twoSidedStopBook.market 6 .bid 1 "t" 10 = some (b', fs) ∧
      b'.limitSide .bid = twoSidedStopBook.limitSide .bid ∧
      b'.stopSide .ask = twoSidedStopBook.stopSide .ask := by
  have hown : twoSidedStopBook.StopsOnOwnSide :=
    ((((StopsOnOwnSide.empty.insertLimit _).insertLimit _).insertLimit _).insertStop _).insertStop _
  obtain ⟨⟨b', fs⟩, hm⟩ : ∃ r, twoSidedStopBook.market 6 .bid 1 "t" 10 = some r :=
    Option.isSome_iff_exists.1 (by decide +kernel)
  have hframe := market_leaves_own_side.1 10 _ hown 6 .bid 1 "t" b' fs hm
  exact ⟨hown, b', fs, hm, hframe.1, hframe.2.1⟩

end Book

end Bourse
