import Bourse.Proofs.Frame
import Bourse.Proofs.Sorting

/-!
# A release cuts a stop ladder at the trigger price

After a level of a limit ladder drains, the stops watching that ladder leave the book: with
`P` the new best price of the drained ladder, the buy stops with trigger at or below `P` after
an ask level drained (`Ladder.takeAtOrBelow`), the sell stops with trigger at or above `P`
after a bid level drained (`Ladder.takeAtOrAbove`).  A ladder stands for an ordered map, so its
keys ascend (`Ladder.Ascending`), and on such a ladder each take cuts it in two at `P`: a
prefix of levels and the rest, the bound inclusive on the side that is taken.  Nothing here
bounds `P`, so the cut is exact at `P = 0` and at `P = 2^64 - 1` as well.

* `Ladder.filter_append_filter_not`: on ascending keys, a test on keys that passes every key
  below one it passes selects a prefix;
* `Ladder.takeAtOrBelow_split`, `Ladder.takeAtOrAbove_split`: the two cuts, and
  `Ladder.takeAtOrBelow_append_orders`, `Ladder.takeAtOrAbove_append_orders`: the orders taken
  and the orders left are the ladder's orders, in their order;
* `Book.release_of_empty`, `Book.release_ask_eq`, `Book.release_bid_eq`: what a release does to
  the book: the stops taken leave one ladder and come out as their stable sort by id
  (`sortedByKey_mergeSort`), and `Book.resting_release_add`: the resting count drops by the
  stops released;
* `Book.release_splits_at_trigger`: all of it together.
-/

namespace Bourse

namespace Ladder

/-- The keys of a ladder strictly ascend, as the keys of an ordered map do. -/
def Ascending (ld : Ladder) : Prop := ld.levels.Pairwise fun a b => a.1 < b.1

instance (ld : Ladder) : Decidable ld.Ascending :=
  inferInstanceAs (Decidable (ld.levels.Pairwise _))

/-- On levels with ascending keys, a test on keys that passes every key below one it passes
selects a prefix: the levels it passes, followed by the levels it fails, are all the levels. -/
theorem filter_append_filter_not {ls : List (UInt64 × Level)}
    (h : ls.Pairwise fun a b => a.1 < b.1) (low : UInt64 → Bool)
    (hlow : ∀ k k', k < k' → low k' = true → low k = true) :
    ls.filter (fun e => low e.1) ++ ls.filter (fun e => !low e.1) = ls := by
  induction ls with
  | nil => rfl
  | cons e rest ih =>
    have hrest := ih h.of_cons
    by_cases he : low e.1 = true
    · simp [he, hrest]
    · -- every later key is above `e.1`, so the test fails it too
      have hnone : ∀ e' ∈ rest, low e'.1 = false := fun e' he' =>
        Bool.eq_false_iff.2 fun h' => he (hlow _ _ (List.rel_of_pairwise_cons h he') h')
      have h₁ : rest.filter (fun e => low e.1) = [] :=
        List.filter_eq_nil_iff.2 fun e' he' => by simp [hnone e' he']
      have h₂ : rest.filter (fun e => !low e.1) = rest :=
        List.filter_eq_self.2 fun e' he' => by simp [hnone e' he']
      simp [he, h₁, h₂]

/-- **Taking at or below a price cuts the ladder there.**  The levels are a prefix keyed at or
below `P`, whose orders are taken level by level, and the levels above `P`, which stay. -/
theorem takeAtOrBelow_split {ld : Ladder} (h : ld.Ascending) (P : UInt64) :
    ∃ low high, ld.levels = low ++ high ∧ (∀ e ∈ low, e.1 ≤ P) ∧ (∀ e ∈ high, P < e.1) ∧
      ld.takeAtOrBelow P = (low.flatMap (·.2.queue), ⟨high⟩) := by
  refine ⟨ld.levels.filter (·.1 ≤ P), ld.levels.filter fun e => !decide (e.1 ≤ P), ?_, ?_, ?_,
    takeAtOrBelow_eq ld P⟩
  · -- a key below one at or below `P` is at or below `P`
    refine (filter_append_filter_not h (fun k => decide (k ≤ P)) fun k k' hk hk' => ?_).symm
    simpa using UInt64.le_trans (UInt64.le_of_lt hk) (by simpa using hk')
  · intro e he
    simpa using (List.mem_filter.1 he).2
  · intro e he
    simpa using (List.mem_filter.1 he).2

/-- At the largest price every level is taken. -/
example : ((Ladder.empty.insert (Order.stop 1 .bid 2 7 "s")).insert
    (Order.stop 2 .bid 2 18446744073709551615 "s")).takeAtOrBelow 18446744073709551615 =
    ([Order.stop 1 .bid 2 7 "s", Order.stop 2 .bid 2 18446744073709551615 "s"], Ladder.empty) := by
  decide

/-- **Taking at or above a price cuts the ladder there.**  The levels are a prefix keyed below
`P`, which stays, and the levels at or above `P`, whose orders are taken level by level. -/
theorem takeAtOrAbove_split {ld : Ladder} (h : ld.Ascending) (P : UInt64) :
    ∃ low high, ld.levels = low ++ high ∧ (∀ e ∈ low, e.1 < P) ∧ (∀ e ∈ high, P ≤ e.1) ∧
      ld.takeAtOrAbove P = (high.flatMap (·.2.queue), ⟨low⟩) := by
  refine ⟨ld.levels.filter fun e => !decide (P ≤ e.1), ld.levels.filter (P ≤ ·.1), ?_, ?_, ?_,
    takeAtOrAbove_eq ld P⟩
  · -- a key below one that is below `P` is below `P`
    have hcut := filter_append_filter_not h (fun k => !decide (P ≤ k)) fun k k' hk hk' => by
      simpa using UInt64.lt_trans hk (by simpa using hk')
    simp only [Bool.not_not] at hcut
    exact hcut.symm
  · intro e he
    simpa using (List.mem_filter.1 he).2
  · intro e he
    simpa using (List.mem_filter.1 he).2

/-- The level at the trigger price is taken and the level below it stays. -/
example : (((Ladder.empty.insert (Order.stop 3 .ask 4 95 "at")).insert
    (Order.stop 4 .ask 4 94 "below")).takeAtOrAbove 95).1 = [Order.stop 3 .ask 4 95 "at"] := by
  decide

/-- The orders taken at or below a price, then the orders left, are the ladder's orders. -/
theorem takeAtOrBelow_append_orders {ld : Ladder} (h : ld.Ascending) (P : UInt64) :
    (ld.takeAtOrBelow P).1 ++ (ld.takeAtOrBelow P).2.orders = ld.orders := by
  obtain ⟨low, high, hls, -, -, htake⟩ := takeAtOrBelow_split h P
  rw [htake, orders_mk, orders, hls, List.flatMap_append]

/-- The orders left below a price, then the orders taken at or above it, are the ladder's
orders. -/
theorem takeAtOrAbove_append_orders {ld : Ladder} (h : ld.Ascending) (P : UInt64) :
    (ld.takeAtOrAbove P).2.orders ++ (ld.takeAtOrAbove P).1 = ld.orders := by
  obtain ⟨low, high, hls, -, -, htake⟩ := takeAtOrAbove_split h P
  rw [htake, orders_mk, orders, hls, List.flatMap_append]

end Ladder

namespace Book

/-! ## What a release does to the book -/

theorem bestOf_eq_none_iff (b : Book) (s : Side) :
    b.bestOf s = none ↔ (b.limitSide s).levels = [] := by
  cases s <;> simp [bestOf, bestBid, bestAsk, limitSide, Ladder.highest, Ladder.lowest]

/-- **Nothing is released when the drained ladder is empty**, and the book stays as it was. -/
theorem release_of_empty {b : Book} {s : Side} (h : (b.limitSide s).levels = []) :
    b.release s = (b, []) := by
  rcases release_spec b s with ⟨-, heq⟩ | ⟨p, hp, -⟩
  · exact heq
  · rw [(bestOf_eq_none_iff b s).2 h] at hp
    cases hp

/-- After an ask level drained, with `p` the new best ask: the buy stops at or below `p` leave
the stop bids, the resting count is lowered by their number, and they are handed over sorted
by id. -/
theorem release_ask_eq {b : Book} {p : UInt64} (hp : b.bestAsk = some p) :
    b.release .ask = ({ b with
      stopBids := (b.stopBids.takeAtOrBelow p).2,
      resting := b.resting - (b.stopBids.takeAtOrBelow p).1.length },
      byId (b.stopBids.takeAtOrBelow p).1) := by
  simp only [release, hp]

/-- After a bid level drained, with `p` the new best bid: the sell stops at or above `p` leave
the stop asks, the resting count is lowered by their number, and they are handed over sorted
by id. -/
theorem release_bid_eq {b : Book} {p : UInt64} (hp : b.bestBid = some p) :
    b.release .bid = ({ b with
      stopAsks := (b.stopAsks.takeAtOrAbove p).2,
      resting := b.resting - (b.stopAsks.takeAtOrAbove p).1.length },
      byId (b.stopAsks.takeAtOrAbove p).1) := by
  simp only [release, hp]

/-- **A release lowers the resting count by the stops it releases**, exactly: on a well-formed
book they rested in a stop ladder, which loses them, and the count is the number of orders in
the four ladders before and after. -/
theorem resting_release_add {b : Book} (h : b.WF) (s : Side) :
    (b.release s).1.resting + (b.release s).2.length = b.resting := by
  have hcount := release_stops_count b s
  have hafter := (release_wf h s).resting_eq
  have hbefore := h.resting_eq
  have hasks : (b.release s).1.asks = b.asks := release_limitSide b s .ask
  have hbids : (b.release s).1.bids = b.bids := release_limitSide b s .bid
  simp only [length_restingOrders, hasks, hbids] at hafter hbefore
  omega

/-! ## The release as a whole -/

/-- **A release cuts a stop ladder exactly at the trigger price.**  On every ladder with
ascending keys and at every price `P`: taking at or below `P` hands over the orders of the
prefix of levels keyed at or below `P`, level by level and oldest first within a level, and
leaves the levels above `P`; taking at or above `P` hands over the orders of the levels keyed at
or above `P` and leaves those below; either way the orders taken and the orders left are the
ladder's orders.  On every well-formed book a release after the drained ladder emptied changes
nothing and releases nothing; otherwise, with `p` the new best price of the drained ladder, the
stops taken at `p` leave their ladder, the resting count drops by their number, and they come
out sorted by id, stops of one id in the order they were taken. -/
theorem release_splits_at_trigger (ld : Ladder) (hld : ld.Ascending) (P : UInt64) (b : Book)
    (hb : b.WF) :
    (∃ low high, ld.levels = low ++ high ∧ (∀ e ∈ low, e.1 ≤ P) ∧ (∀ e ∈ high, P < e.1) ∧
      ld.takeAtOrBelow P = (low.flatMap (·.2.queue), ⟨high⟩)) ∧
    (ld.takeAtOrBelow P).1 ++ (ld.takeAtOrBelow P).2.orders = ld.orders ∧
    (∃ low high, ld.levels = low ++ high ∧ (∀ e ∈ low, e.1 < P) ∧ (∀ e ∈ high, P ≤ e.1) ∧
      ld.takeAtOrAbove P = (high.flatMap (·.2.queue), ⟨low⟩)) ∧
    (ld.takeAtOrAbove P).2.orders ++ (ld.takeAtOrAbove P).1 = ld.orders ∧
    (∀ s, (b.limitSide s).levels = [] → b.release s = (b, [])) ∧
    (∀ p, b.bestAsk = some p →
      (b.release .ask).1 = { b with
        stopBids := (b.stopBids.takeAtOrBelow p).2,
        resting := b.resting - (b.stopBids.takeAtOrBelow p).1.length } ∧
      (b.release .ask).1.resting + (b.stopBids.takeAtOrBelow p).1.length = b.resting ∧
      SortedByKey (·.id) (b.release .ask).2 (b.stopBids.takeAtOrBelow p).1) ∧
    (∀ p, b.bestBid = some p →
      (b.release .bid).1 = { b with
        stopAsks := (b.stopAsks.takeAtOrAbove p).2,
        resting := b.resting - (b.stopAsks.takeAtOrAbove p).1.length } ∧
      (b.release .bid).1.resting + (b.stopAsks.takeAtOrAbove p).1.length = b.resting ∧
      SortedByKey (·.id) (b.release .bid).2 (b.stopAsks.takeAtOrAbove p).1) := by
  refine ⟨Ladder.takeAtOrBelow_split hld P, Ladder.takeAtOrBelow_append_orders hld P,
    Ladder.takeAtOrAbove_split hld P, Ladder.takeAtOrAbove_append_orders hld P,
    fun s => release_of_empty, fun p hp => ?_, fun p hp => ?_⟩
  · have hcount := resting_release_add hb .ask
    rw [release_ask_eq hp] at hcount ⊢
    exact ⟨rfl, by simpa [length_byId] using hcount, sortedByKey_mergeSort (·.id) _⟩
  · have hcount := resting_release_add hb .bid
    rw [release_bid_eq hp] at hcount ⊢
    exact ⟨rfl, by simpa [length_byId] using hcount, sortedByKey_mergeSort (·.id) _⟩

/-- A bid of 10 at 95, and sell stops of 4 at 95 and 94. -/
def sellStopsBook : Book :=
  ((empty.insertLimit (Order.limit 2 .bid 10 95 "m2")).insertStop
    (Order.stop 3 .ask 4 95 "at")).insertStop (Order.stop 4 .ask 4 94 "below")

/-- The book is well formed, its stop asks split at 95, and a release after a bid level drained
sorts the stops taken there by id. -/
theorem release_splits_at_trigger_sell_boundary :
    sellStopsBook.stopAsks.Ascending ∧ sellStopsBook.WF ∧
    (∃ low high, sellStopsBook.stopAsks.levels = low ++ high ∧ (∀ e ∈ low, e.1 < 95) ∧
      (∀ e ∈ high, 95 ≤ e.1) ∧
      sellStopsBook.stopAsks.takeAtOrAbove 95 = (high.flatMap (·.2.queue), ⟨low⟩)) ∧
    SortedByKey (·.id) (sellStopsBook.release .bid).2
      (sellStopsBook.stopAsks.takeAtOrAbove 95).1 := by
  have hb : sellStopsBook.WF :=
    insertStop_wf (insertStop_wf (insertLimit_wf empty_wf (by decide)) (by decide)) (by decide)
  have h := release_splits_at_trigger _ hb.stopAsks.ascending 95 _ hb
  exact ⟨hb.stopAsks.ascending, hb, h.2.2.1, (h.2.2.2.2.2.2 95 (by decide)).2.2⟩

end Book

end Bourse
