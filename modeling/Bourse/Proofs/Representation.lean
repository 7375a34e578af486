import Bourse.Proofs.Execution

/-!
# The representation invariant of the book

The book caches two kinds of numbers beside its queues: every level's total size and the
count of resting orders.  They are updated apart from the queues at every site that
touches a queue, and a market order with its stop cascade runs many of those sites in a
row.  `Book.WF` states what the caches must agree with:

* each of the four ladders is well formed (`Ladder.WF`: prices strictly ascending, every
  level non-empty, its total the sum of its sizes, every order of positive size and priced
  at its level);
* the resting count is the number of orders resting in the four ladders.

Every operation of the book keeps `Book.WF` (`insertLimit_wf`, `insertStop_wf`,
`cancel?_wf`, `market_wf`, `restore_wf`), so every book reachable from the empty one
satisfies it (`Reachable.wf`).  Under the invariant the best bid and the best ask are the
extreme prices of their ladders and the depth report lists the best levels with their true
sizes; `representation_invariant` states all of it for every reachable book.
-/

namespace Bourse

namespace Book

/-- Every resting order of a book, ladder by ladder in search order. -/
def restingOrders (b : Book) : List Order := b.ladders.flatMap Ladder.orders

theorem restingOrders_eq (b : Book) :
    b.restingOrders = b.asks.orders ++ b.bids.orders ++ b.stopAsks.orders ++ b.stopBids.orders := by
  simp [restingOrders, ladders]

@[simp] theorem length_restingOrders (b : Book) :
    b.restingOrders.length = b.asks.count + b.bids.count + b.stopAsks.count + b.stopBids.count := by
  simp only [restingOrders_eq, List.length_append, Ladder.count_eq]

/-- The representation invariant: the four ladders are well formed and the resting count
is the number of orders resting in them. -/
structure WF (b : Book) : Prop where
  asks : b.asks.WF
  bids : b.bids.WF
  stopAsks : b.stopAsks.WF
  stopBids : b.stopBids.WF
  resting_eq : b.resting = b.restingOrders.length

theorem empty_wf : empty.WF :=
  ⟨Ladder.empty_wf, Ladder.empty_wf, Ladder.empty_wf, Ladder.empty_wf, rfl⟩

theorem WF.limitSide {b : Book} (h : b.WF) (s : Side) : (b.limitSide s).WF := by
  cases s
  · exact h.bids
  · exact h.asks

/-! ## Resting inserts and cancels -/

theorem insertLimit_wf {b : Book} (h : b.WF) {o : Order} (hs : 0 < o.size) :
    (b.insertLimit o).WF := by
  unfold insertLimit
  split
  · exact ⟨h.asks, Ladder.insert_wf h.bids hs, h.stopAsks, h.stopBids,
      by simp [Ladder.count_insert, h.resting_eq]; omega⟩
  · exact ⟨Ladder.insert_wf h.asks hs, h.bids, h.stopAsks, h.stopBids,
      by simp [Ladder.count_insert, h.resting_eq]; omega⟩

theorem insertStop_wf {b : Book} (h : b.WF) {o : Order} (hs : 0 < o.size) :
    (b.insertStop o).WF := by
  unfold insertStop
  split
  · exact ⟨h.asks, h.bids, h.stopAsks, Ladder.insert_wf h.stopBids hs,
      by simp [Ladder.count_insert, h.resting_eq]; omega⟩
  · exact ⟨h.asks, h.bids, Ladder.insert_wf h.stopAsks hs, h.stopBids,
      by simp [Ladder.count_insert, h.resting_eq]; omega⟩

/-- A cancel removes the order from the first of the four ladders that holds its id. -/
theorem cancel?_eq_some {b : Book} {id : UInt64} {o : Order} {b' : Book}
    (hc : b.cancel? id = some (o, b')) :
    (∃ ld, b.asks.remove? id = some (o, ld) ∧ b' = { b with asks := ld, resting := b.resting - 1 }) ∨
    (∃ ld, b.bids.remove? id = some (o, ld) ∧ b' = { b with bids := ld, resting := b.resting - 1 }) ∨
    (∃ ld, b.stopAsks.remove? id = some (o, ld) ∧
      b' = { b with stopAsks := ld, resting := b.resting - 1 }) ∨
    (∃ ld, b.stopBids.remove? id = some (o, ld) ∧
      b' = { b with stopBids := ld, resting := b.resting - 1 }) := by
  unfold cancel? at hc
  split at hc
  · rename_i ld hr
    simp only [Option.some.injEq, Prod.mk.injEq] at hc
    obtain ⟨rfl, rfl⟩ := hc
    exact Or.inl ⟨ld, hr, rfl⟩
  split at hc
  · rename_i ld hr
    simp only [Option.some.injEq, Prod.mk.injEq] at hc
    obtain ⟨rfl, rfl⟩ := hc
    exact Or.inr (Or.inl ⟨ld, hr, rfl⟩)
  split at hc
  · rename_i ld hr
    simp only [Option.some.injEq, Prod.mk.injEq] at hc
    obtain ⟨rfl, rfl⟩ := hc
    exact Or.inr (Or.inr (Or.inl ⟨ld, hr, rfl⟩))
  split at hc
  · rename_i ld hr
    simp only [Option.some.injEq, Prod.mk.injEq] at hc
    obtain ⟨rfl, rfl⟩ := hc
    exact Or.inr (Or.inr (Or.inr ⟨ld, hr, rfl⟩))
  · simp at hc

/-- A cancel takes its order out of the first ladder that holds the id, and counts it. -/
theorem cancel?_wf {b : Book} (h : b.WF) {id : UInt64} {o : Order} {b' : Book}
    (hc : b.cancel? id = some (o, b')) : b'.WF := by
  have hr := h.resting_eq
  simp only [length_restingOrders] at hr
  rcases cancel?_eq_some hc with ⟨ld, hrem, rfl⟩ | ⟨ld, hrem, rfl⟩ | ⟨ld, hrem, rfl⟩ |
    ⟨ld, hrem, rfl⟩ <;> have := Ladder.count_remove? hrem
  · exact ⟨Ladder.remove?_wf h.asks hrem, h.bids, h.stopAsks, h.stopBids, by simp; omega⟩
  · exact ⟨h.asks, Ladder.remove?_wf h.bids hrem, h.stopAsks, h.stopBids, by simp; omega⟩
  · exact ⟨h.asks, h.bids, Ladder.remove?_wf h.stopAsks hrem, h.stopBids, by simp; omega⟩
  · exact ⟨h.asks, h.bids, h.stopAsks, Ladder.remove?_wf h.stopBids hrem, by simp; omega⟩

/-! ## Market executions and the cascade -/

/-- Replacing a limit ladder by a well-formed one holding `k` fewer orders, and lowering the
count by `k`, keeps the invariant. -/
theorem WF.setLimitSide {b : Book} (h : b.WF) {s : Side} {ld : Ladder} (hld : ld.WF) {k : Nat}
    (hk : ld.count + k = (b.limitSide s).count) :
    ({ b.setLimitSide s ld with resting := b.resting - k } : Book).WF := by
  have hr := h.resting_eq
  simp only [length_restingOrders] at hr
  cases s
  · change ld.count + k = b.bids.count at hk
    exact ⟨h.asks, hld, h.stopAsks, h.stopBids, by simp; omega⟩
  · change ld.count + k = b.asks.count at hk
    exact ⟨hld, h.bids, h.stopAsks, h.stopBids, by simp; omega⟩

theorem matchBest_wf {b : Book} (h : b.WF) {taker : Side} {size now price : UInt64}
    {drained : Bool} {b' : Book} {makers : List Order}
    (hm : b.matchBest taker size now = some (price, drained, b', makers)) : b'.WF := by
  obtain ⟨l, -, hl, -, rfl, -, rfl⟩ := matchBest_eq_some hm
  have hld := h.limitSide taker.opposite
  have hmem := hld.level?_eq_some_iff.1 hl
  refine h.setLimitSide (Ladder.setLevel_wf hld hmem ((hld.level_wf _ hmem).afterFill size)) ?_
  simpa using count_setLevel_afterFill hld hmem size

theorem execute_wf {b : Book} (h : b.WF) {o : Order} {clock : UInt64} {drained : Bool}
    {b' : Book} {fs : List Fill} (hx : b.execute o clock = some (drained, b', fs)) : b'.WF := by
  obtain ⟨price, b₁, makers, hm, rfl, -⟩ := execute_eq_some hx
  have h₁ := matchBest_wf h hm
  -- logging touches neither a ladder nor the count
  exact ⟨h₁.asks, h₁.bids, h₁.stopAsks, h₁.stopBids, h₁.resting_eq⟩

theorem release_wf {b : Book} (h : b.WF) (s : Side) : (b.release s).1.WF := by
  have hr := h.resting_eq
  simp only [length_restingOrders] at hr
  cases s with
  | ask =>
    simp only [release]
    split
    · exact h
    · rename_i p _
      have := (Ladder.orders_takeAtOrBelow_perm b.stopBids p).length_eq
      simp only [List.length_append, ← Ladder.count_eq] at this
      exact ⟨h.asks, h.bids, h.stopAsks, Ladder.takeAtOrBelow_wf h.stopBids p, by simp; omega⟩
  | bid =>
    simp only [release]
    split
    · exact h
    · rename_i p _
      have := (Ladder.orders_takeAtOrAbove_perm b.stopAsks p).length_eq
      simp only [List.length_append, ← Ladder.count_eq] at this
      exact ⟨h.asks, h.bids, Ladder.takeAtOrAbove_wf h.stopAsks p, h.stopBids, by simp; omega⟩

/-- **A market order keeps the invariant**, through every execution and release of its
cascade. -/
theorem market_wf {b : Book} (h : b.WF) {id : UInt64} {side : Side} {size : UInt64}
    {user : String} {clock : UInt64} {b' : Book} {fs : List Fill}
    (hm : b.market id side size user clock = some (b', fs)) : b'.WF :=
  market_invariant clock WF (fun _ _ _ _ _ hb hx => execute_wf hb hx)
    (fun _ s hb => release_wf hb s) h hm

/-- A restored book satisfies the invariant, whatever the snapshot held. -/
theorem restore_wf (s : Snapshot) : (restore s).WF :=
  ⟨Ladder.ofEntries_wf _, Ladder.ofEntries_wf _, Ladder.ofEntries_wf _, Ladder.ofEntries_wf _,
    by simp [restore]⟩

/-! ## Reachable books -/

/-- The books the book's interface can build from the empty one: resting inserts of orders
of positive size (any id, side and price), market orders of any id, side, size and clock,
cancels of any id, and restores of any snapshot.  A market order or a cancel that fails
leaves the book as it was, so only the successful ones are steps. -/
inductive Reachable : Book → Prop
  | empty : Reachable empty
  | insertLimit {b : Book} {o : Order} : Reachable b → 0 < o.size → Reachable (b.insertLimit o)
  | insertStop {b : Book} {o : Order} : Reachable b → 0 < o.size → Reachable (b.insertStop o)
  | market {b b' : Book} {id : UInt64} {side : Side} {size : UInt64} {user : String}
      {clock : UInt64} {fs : List Fill} :
      Reachable b → b.market id side size user clock = some (b', fs) → Reachable b'
  | cancel {b b' : Book} {id : UInt64} {o : Order} :
      Reachable b → b.cancel? id = some (o, b') → Reachable b'
  | restore (s : Snapshot) : Reachable (restore s)

theorem Reachable.wf {b : Book} (h : b.Reachable) : b.WF := by
  induction h with
  | empty => exact empty_wf
  | insertLimit _ hs ih => exact insertLimit_wf ih hs
  | insertStop _ hs ih => exact insertStop_wf ih hs
  | market _ hm ih => exact market_wf ih hm
  | cancel _ hc ih => exact cancel?_wf ih hc
  | restore s => exact restore_wf s

/-! ## What the invariant gives the readers of the book -/

/-- `ds` is a right depth report of `n` levels for a ladder whose better prices are those
that `better` puts first: the best `min n (#levels)` prices of the ladder, best first and
each once, each with the total size of the orders resting at it; every price left out is
worse than every price reported. -/
structure DepthOf (ld : Ladder) (better : UInt64 → UInt64 → Prop) (n : Nat)
    (ds : List DepthLevel) : Prop where
  length_eq : ds.length = min n ld.levels.length
  ordered : ds.Pairwise fun d d' => better d.price d'.price
  sized : ∀ d ∈ ds, d.price ∈ ld.keys ∧
    d.size = Level.sizeSum (ld.orders.filter (·.price == d.price))
  best : ∀ d ∈ ds, ∀ q ∈ ld.keys, q ∉ ds.map (·.price) → better d.price q

/-- Reporting the first `n` levels of a listing of a well-formed ladder, best first, is a
right depth report. -/
theorem depthOf_take {ld : Ladder} (h : ld.WF) {better : UInt64 → UInt64 → Prop}
    {L : List (UInt64 × Level)} (hL : L.Pairwise fun a b => better a.1 b.1)
    (hmem : ∀ e, e ∈ L ↔ e ∈ ld.levels) (hlen : L.length = ld.levels.length) (n : Nat) :
    DepthOf ld better n ((L.take n).map fun e => ⟨e.1, e.2.total⟩) where
  length_eq := by simp [hlen]
  ordered := List.pairwise_map.2 (hL.sublist (List.take_sublist n L))
  sized := by
    intro d hd
    obtain ⟨e, he, rfl⟩ := List.mem_map.1 hd
    have he' : e ∈ ld.levels := (hmem e).1 (List.mem_of_mem_take he)
    refine ⟨List.mem_map.2 ⟨e, he', rfl⟩, ?_⟩
    -- the cached total is the sum over the level's queue, which is every order at that price
    show e.2.total = _
    rw [(h.level_wf e he').total_eq, h.filter_orders_price he']
  best := by
    intro d hd q hq hout
    obtain ⟨e, he, rfl⟩ := List.mem_map.1 hd
    obtain ⟨e', he', rfl⟩ := List.mem_map.1 hq
    have hinL : e' ∈ L := (hmem e').2 he'
    have hnot : e' ∉ L.take n := by
      intro hin
      exact hout (List.mem_map.2 ⟨⟨e'.1, e'.2.total⟩, List.mem_map.2 ⟨e', hin, rfl⟩, rfl⟩)
    have hdrop : e' ∈ L.drop n := by
      rw [← List.take_append_drop n L] at hinL
      exact (List.mem_append.1 hinL).resolve_left hnot
    have hsplit := hL
    rw [← List.take_append_drop n L, List.pairwise_append] at hsplit
    exact hsplit.2.2 e he e' hdrop

theorem depth_bids (b : Book) (n : Nat) :
    (b.depth n).bids = (b.bids.levels.reverse.take n).map fun e => ⟨e.1, e.2.total⟩ := by
  simp [depth, Ladder.totals, List.map_reverse, List.map_take, Function.comp_def]

theorem depth_asks (b : Book) (n : Nat) :
    (b.depth n).asks = (b.asks.levels.take n).map fun e => ⟨e.1, e.2.total⟩ := by
  simp [depth, Ladder.totals, List.map_take, Function.comp_def]

/-- **The representation invariant over whole runs.**  Every book reachable from the empty
one through resting inserts of orders of positive size, market orders (any id, side and
size, cascades included), cancels and restores satisfies `WF`: in each of the four ladders
every level is non-empty, caches the exact sum of its sizes, and holds only orders of
positive size priced at its key, and the resting count is the number of resting orders.
Hence the best bid is the largest bid price and the best ask the smallest ask price, and
the depth report of any `n` levels lists the best `min n (#levels)` prices of each limit
ladder (bids strictly descending, asks strictly ascending), each with the total size
resting there. -/
theorem representation_invariant {b : Book} (h : b.Reachable) :
    b.WF ∧
    (∀ p, b.bestBid = some p ↔ p ∈ b.bids.keys ∧ ∀ q ∈ b.bids.keys, q ≤ p) ∧
    (∀ p, b.bestAsk = some p ↔ p ∈ b.asks.keys ∧ ∀ q ∈ b.asks.keys, p ≤ q) ∧
    ∀ n, DepthOf b.bids (fun p q => q < p) n (b.depth n).bids ∧
      DepthOf b.asks (· < ·) n (b.depth n).asks := by
  have hwf := h.wf
  refine ⟨hwf, fun p => hwf.bids.highest_eq_some_iff, fun p => hwf.asks.lowest_eq_some_iff,
    fun n => ⟨?_, ?_⟩⟩
  · rw [depth_bids]
    exact depthOf_take hwf.bids (List.pairwise_reverse.2 hwf.bids.ascending)
      (fun e => List.mem_reverse) List.length_reverse n
  · rw [depth_asks]
    exact depthOf_take hwf.asks hwf.asks.ascending (fun e => Iff.rfl) rfl n

/-- One resting bid of size 5 at 100. -/
def singleBidBook : Book := empty.insertLimit (Order.limit 0 .bid 5 100 "alice")

/-- The book is reachable, and so satisfies the invariant. -/
theorem representation_invariant_single_bid : singleBidBook.Reachable ∧ singleBidBook.WF :=
  have hr : singleBidBook.Reachable := .insertLimit .empty (by decide)
  ⟨hr, (representation_invariant hr).1⟩

end Book

end Bourse
