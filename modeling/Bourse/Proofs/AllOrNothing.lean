import Bourse.Proofs.Representation

/-!
# One level, all or nothing

A market order trades against one level only, the best level of the opposite limit ladder,
and only when that level covers it.  This file says what the trade does in the terms a
trader would use, without the fill loop:

* `Level.LongestFit`: the makers taken whole are the longest prefix of the queue whose sizes
  fit into the order;
* `Level.LeftOver`: what the order still needs after them is taken off the next maker, which
  stays at the front of the queue with its other fields as they were;
* `consume_fill` proves that the fill rule `Level.consume` does exactly this on a queue of
  orders of positive size that covers the order, and `LeftOver.eq_nil_iff` that the queue
  empties exactly when the order takes the whole level;
* `Book.market_eq_none_iff`: a market order fails exactly when there is no opposite level or
  the best one does not cover it;
* `Book.market_single_level`: otherwise the book after it is the book with that one level
  replaced (or gone when the order took it all), the makers and then the order itself logged
  and announced, and the stop cascade run exactly when the level went (`Book.MarketFill`);
* `Book.market_all_or_nothing` states both for every well-formed book.

The maker reduced in place keeps its timestamp: nothing stamps it, so in a book whose resting
orders carry another timestamp than 0 it keeps that one (`market_keeps_maker_timestamp`).
-/

namespace Bourse

namespace Level

/-- `k` is the length of the longest prefix of `queue` whose sizes add up to at most `size`. -/
def LongestFit (queue : List Order) (size k : Nat) : Prop :=
  k ≤ queue.length ∧ sizeSum (queue.take k) ≤ size ∧
    ∀ j, k < j → j ≤ queue.length → size < sizeSum (queue.take j)

/-- What a taker of `size` leaves of `queue` once it took the first `k` makers whole: the rest
of the queue, whose front maker, when the taker still needs something, is reduced by that much
and stays in front. -/
def LeftOver (queue : List Order) (size k : Nat) (left : List Order) : Prop :=
  (size ≤ sizeSum (queue.take k) → left = queue.drop k) ∧
  (sizeSum (queue.take k) < size → ∃ o rest, queue.drop k = o :: rest ∧
    size - sizeSum (queue.take k) < o.size.toNat ∧
    left = { o with size := o.size - UInt64.ofNat (size - sizeSum (queue.take k)) } :: rest)

/-- A prefix of orders of positive size is worth at least its first order. -/
theorem size_le_sizeSum_take (o : Order) (rest : List Order) {j : Nat} (hj : 0 < j) :
    o.size.toNat ≤ sizeSum ((o :: rest).take j) := by
  obtain ⟨j, rfl⟩ := Nat.exists_eq_add_of_lt hj
  simp

/-- **The fill rule takes the longest prefix that fits.**  On a queue of orders of positive
size whose sizes cover `size`, `consume` takes the first `k` makers whole, `k` the length of the
longest prefix that fits, leaves the rest with the next maker reduced by what is still to
fill, and takes exactly `size`. -/
theorem consume_fill {queue : List Order} {size : UInt64} (hpos : ∀ o ∈ queue, 0 < o.size)
    (hcover : size.toNat ≤ sizeSum queue) :
    ∃ k, LongestFit queue size.toNat k ∧ LeftOver queue size.toNat k (consume queue size).2.1 ∧
      (consume queue size).1 = queue.take k ∧ (consume queue size).2.2 = size.toNat := by
  induction queue, size using consume.induct with
  | case1 r =>
    -- an empty queue covers only an order of size 0
    have hr : r.toNat = 0 := by simpa using hcover
    refine ⟨0, ⟨Nat.le_refl _, by simp, fun j hj hle => by simp at hle; omega⟩, ⟨fun _ => ?_, ?_⟩,
      rfl, by simp [consume, hr]⟩
    · simp [consume]
    · intro h; simp at h; omega
  | case2 o rest =>
    -- nothing to fill: no maker is taken and the queue stays as it is
    refine ⟨0, ⟨Nat.zero_le _, by simp, fun j hj _ => ?_⟩, ⟨fun _ => by simp [consume], ?_⟩,
      by simp [consume], by simp [consume]⟩
    · have h₁ := size_le_sizeSum_take o rest hj
      have h₂ : 0 < o.size.toNat := UInt64.lt_iff_toNat_lt.1 (hpos o List.mem_cons_self)
      simp only [UInt64.toNat_zero]
      omega
    · intro h; simp at h
  | case3 o rest r h0 hle _ _ _ _ ih =>
    -- the front maker fits whole: the rest is the fill of what remains after it
    have hle' : o.size.toNat ≤ r.toNat := UInt64.le_iff_toNat_le.1 hle
    have hsub : (r - o.size).toNat = r.toNat - o.size.toNat := UInt64.toNat_sub_of_le _ _ hle
    have hcover' : (r - o.size).toNat ≤ sizeSum rest := by
      simp only [sizeSum_cons] at hcover
      omega
    obtain ⟨k, ⟨hk, hfits, hlong⟩, ⟨hexact, hpart⟩, htaken, hamount⟩ :=
      ih (fun x hx => hpos x (List.mem_cons_of_mem _ hx)) hcover'
    rw [hsub] at hfits hlong hexact hpart hamount
    rw [consume_cons_whole h0 hle]
    refine ⟨k + 1, ⟨by simpa using hk, ?_, fun j hj hjle => ?_⟩, ⟨fun h => ?_, fun h => ?_⟩,
      by simp [htaken], ?_⟩
    · simp only [List.take_succ_cons, sizeSum_cons]
      omega
    · obtain ⟨j, rfl⟩ := Nat.exists_eq_add_of_lt (show 0 < j by omega)
      have := hlong j (by omega) (by simpa using hjle)
      simp only [Nat.zero_add, List.take_succ_cons, sizeSum_cons]
      omega
    · simp only [List.take_succ_cons, sizeSum_cons] at h
      simpa using hexact (by omega)
    · simp only [List.take_succ_cons, sizeSum_cons] at h ⊢
      obtain ⟨x, xs, hdrop, hlt, hleft⟩ := hpart (by omega)
      refine ⟨x, xs, by simpa using hdrop, by omega, ?_⟩
      rw [hleft]
      congr 4
      omega
    · show o.size.toNat + (consume rest (r - o.size)).2.2 = r.toNat
      rw [hamount]
      exact Nat.add_sub_of_le hle'
  | case4 o rest r h0 hle =>
    -- the front maker does not fit: it is reduced by the whole order and nothing is taken
    have hlt : r.toNat < o.size.toNat := UInt64.lt_iff_toNat_lt.1 (UInt64.not_le.1 hle)
    have hr : 0 < r.toNat := by
      have : r.toNat ≠ 0 := fun h => h0 (UInt64.toNat_inj.1 (by simpa using h))
      omega
    rw [consume_cons_part h0 hle]
    refine ⟨0, ⟨Nat.zero_le _, by simp, fun j hj _ => ?_⟩, ⟨fun h => ?_, fun _ => ?_⟩, rfl, rfl⟩
    · have := size_le_sizeSum_take o rest hj
      omega
    · simp at h; omega
    · exact ⟨o, rest, rfl, by simpa using hlt, by simp⟩

/-- **The level empties exactly when the order takes all of it.** -/
theorem LeftOver.eq_nil_iff {queue left : List Order} {size k : Nat}
    (hfit : LongestFit queue size k) (h : LeftOver queue size k left) :
    left = [] ↔ size = sizeSum queue := by
  obtain ⟨hk, hfits, hlong⟩ := hfit
  constructor
  · intro hnil
    -- with something still to fill, the reduced maker would stay
    have hcovered : size ≤ sizeSum (queue.take k) := by
      refine Nat.not_lt.1 fun hlt => ?_
      obtain ⟨o, rest, -, -, hleft⟩ := h.2 hlt
      simp [hnil] at hleft
    have hdrop := h.1 hcovered
    rw [hnil, eq_comm, List.drop_eq_nil_iff] at hdrop
    rw [List.take_of_length_le hdrop] at hfits hcovered
    omega
  · intro hall
    -- every prefix fits, so the longest is the whole queue
    have hk' : k = queue.length := by
      refine Nat.le_antisymm hk (Nat.not_lt.1 fun hlt => ?_)
      have := hlong queue.length hlt (Nat.le_refl _)
      rw [List.take_length] at this
      omega
    rw [h.1 (by rw [hk', List.take_length]; omega), hk', List.drop_length]

end Level

namespace Book

/-- A match fails exactly when the best opposite level is missing or does not cover the
size. -/
theorem matchBest_eq_none_iff (b : Book) (taker : Side) (size now : UInt64) :
    b.matchBest taker size now = none ↔
      ∀ p l, b.bestOf taker.opposite = some p → (b.limitSide taker.opposite).level? p = some l →
        l.total < size.toNat := by
  constructor
  · intro h p l hp hl
    refine Nat.lt_of_not_le fun hcover => ?_
    simp [matchBest, hp, hl, Nat.not_lt.2 hcover] at h
  · intro h
    cases hp : b.bestOf taker.opposite with
    | none => simp [matchBest, hp]
    | some p =>
      cases hl : (b.limitSide taker.opposite).level? p with
      | none => simp [matchBest, hp, hl]
      | some l => simp [matchBest, hp, hl, h p l hp hl]

/-- A match at a covering level: the level is replaced by what the fill left of it, and the
makers taken whole come out stamped. -/
theorem matchBest_of_covers {b : Book} {taker : Side} {size now p : UInt64} {l : Level}
    (hp : b.bestOf taker.opposite = some p) (hl : (b.limitSide taker.opposite).level? p = some l)
    (hcover : size.toNat ≤ l.total) :
    b.matchBest taker size now = some (p, (Level.consume l.queue size).2.1.isEmpty,
      { b.setLimitSide taker.opposite ((b.limitSide taker.opposite).setLevel p (l.afterFill size))
        with resting := b.resting - (Level.consume l.queue size).1.length },
      (Level.consume l.queue size).1.map fun o => { o with timestamp := now }) := by
  have hnlt : ¬ l.total < size.toNat := Nat.not_lt.2 hcover
  simp only [matchBest, hp, hl, hnlt, if_false, Level.afterFill, List.length_map,
    setLimitSide_resting]

theorem execute_eq_none_iff (b : Book) (o : Order) (clock : UInt64) :
    b.execute o clock = none ↔ b.matchBest o.side o.size (stampOf clock) = none := by
  cases h : b.matchBest o.side o.size (stampOf clock) with
  | none => simp [execute, h]
  | some r => simp [execute, h]

theorem market_eq_none_iff_execute (b : Book) (id : UInt64) (side : Side) (size : UInt64)
    (user : String) (clock : UInt64) :
    b.market id side size user clock = none ↔
      b.execute (Order.market id side size user) clock = none := by
  cases h : b.execute (Order.market id side size user) clock with
  | none => simp [market, h]
  | some r =>
    obtain ⟨drained, b', fs⟩ := r
    cases drained <;> simp [market, h]

/-- **All or nothing.**  A market order fails, and so changes nothing and announces nothing,
exactly when the opposite limit ladder has no best level or its best level does not cover
the order. -/
theorem market_eq_none_iff (b : Book) (id : UInt64) (side : Side) (size : UInt64) (user : String)
    (clock : UInt64) :
    b.market id side size user clock = none ↔
      ∀ p l, b.bestOf side.opposite = some p → (b.limitSide side.opposite).level? p = some l →
        l.total < size.toNat := by
  rw [market_eq_none_iff_execute, execute_eq_none_iff]
  exact matchBest_eq_none_iff b side size _

/-- What a market order of `size` does in a book `b` when the best opposite level `l`, at
price `p`, covers it, with `result` what the order returns.  The order takes the longest prefix
of `l`'s queue that fits whole (`k` makers) and takes what it still needs off the next maker,
which stays in front (`Level.LeftOver`); the level is deleted exactly when its total is the
order's size.  The makers, stamped and otherwise unchanged, and then the order itself, of kind
market, priced at `p` and stamped, are logged and announced in that order; no other level
moves and the resting count drops by `k`.  The stop cascade runs exactly when the level went. -/
def MarketFill (b : Book) (id : UInt64) (side : Side) (size : UInt64) (user : String)
    (clock p : UInt64) (l : Level) (result : Option (Book × List Fill)) : Prop :=
  ∃ k left, Level.LongestFit l.queue size.toNat k ∧ Level.LeftOver l.queue size.toNat k left ∧
    let done := (l.queue.take k).map (fun o => { o with timestamp := stampOf clock }) ++
      [{ Order.market id side size user with price := p, timestamp := stampOf clock }]
    let filled : Book :=
      { b.setLimitSide side.opposite ((b.limitSide side.opposite).setLevel p
          (if l.total = size.toNat then none else some { queue := left, total := l.total - size.toNat }))
        with history := b.history ++ done, resting := b.resting - k }
    result = some (if l.total = size.toNat then
        ((filled.cascade side.opposite clock).1,
          done.map Order.fill ++ (filled.cascade side.opposite clock).2)
      else (filled, done.map Order.fill))

/-- **A market order trades at one level.**  In a well-formed book whose best level opposite a
market order covers it, the order does what `MarketFill` says. -/
theorem market_single_level {b : Book} (hb : b.WF) (id : UInt64) (side : Side) (size : UInt64)
    (user : String) (clock : UInt64) {p : UInt64} {l : Level}
    (hp : b.bestOf side.opposite = some p) (hl : (b.limitSide side.opposite).level? p = some l)
    (hcover : size.toNat ≤ l.total) :
    MarketFill b id side size user clock p l (b.market id side size user clock) := by
  -- the level is well formed at its price
  have hlwf : l.WF p :=
    (hb.limitSide side.opposite).level_wf (p, l) (((hb.limitSide _).level?_eq_some_iff).1 hl)
  have hsum := hlwf.total_eq
  obtain ⟨k, hfit, hleft, htaken, hamount⟩ :=
    Level.consume_fill hlwf.sized (by rw [← hsum]; exact hcover)
  refine ⟨k, _, hfit, hleft, ?_⟩
  intro done filled
  -- the level went exactly when the order took its whole total
  have hdrained : (Level.consume l.queue size).2.1.isEmpty = decide (l.total = size.toNat) := by
    have h := hleft.eq_nil_iff hfit
    rw [← hsum] at h
    by_cases hc : l.total = size.toNat
    · simp [hc, h.2 hc.symm]
    · simp only [hc, decide_false, List.isEmpty_eq_false_iff]
      exact fun hnil => hc (h.1 hnil).symm
  have hafter : l.afterFill size = if l.total = size.toNat then none
      else some { queue := (Level.consume l.queue size).2.1, total := l.total - size.toNat } := by
    unfold Level.afterFill
    rw [hdrained, hamount]
    by_cases h : l.total = size.toNat <;> simp [h]
  have hlen : (l.queue.take k).length = k := by
    rw [List.length_take]
    exact Nat.min_eq_left hfit.1
  have hexec : b.execute (Order.market id side size user) clock =
      some (decide (l.total = size.toNat), filled, done.map Order.fill) := by
    simp only [execute, Order.market, matchBest_of_covers hp hl hcover]
    simp only [hdrained, hafter, hlen, htaken, filled, done, setLimitSide_history,
      Order.market]
  unfold market
  rw [hexec]
  by_cases h : l.total = size.toNat <;> simp [h]

/-- **Single-level, all-or-nothing execution.**  In a well-formed book a market order fails,
changing nothing and announcing nothing, exactly when the opposite limit ladder has no best
level or its best level does not cover the order; otherwise it trades at that one level as
`MarketFill` says. -/
theorem market_all_or_nothing {b : Book} (hb : b.WF) (id : UInt64) (side : Side) (size : UInt64)
    (user : String) (clock : UInt64) :
    (b.market id side size user clock = none ↔
      ∀ p l, b.bestOf side.opposite = some p → (b.limitSide side.opposite).level? p = some l →
        l.total < size.toNat) ∧
    ∀ p l, b.bestOf side.opposite = some p → (b.limitSide side.opposite).level? p = some l →
      size.toNat ≤ l.total → MarketFill b id side size user clock p l (b.market id side size user clock) :=
  ⟨market_eq_none_iff b id side size user clock,
    fun _ _ hp hl hcover => market_single_level hb id side size user clock hp hl hcover⟩

/-- One resting ask of size 5 at 100. -/
def oneAskBook : Book := empty.insertLimit (Order.limit 1 .ask 5 100 "m")

/-- The book is well formed, and a buy of 3 there trades or fails as `market_all_or_nothing`
says. -/
theorem market_all_or_nothing_one_ask :
    oneAskBook.WF ∧
    ((oneAskBook.market 2 .bid 3 "t" 10 = none ↔
      ∀ p l, oneAskBook.bestOf Side.bid.opposite = some p →
        (oneAskBook.limitSide Side.bid.opposite).level? p = some l →
          l.total < (3 : UInt64).toNat) ∧
    ∀ p l, oneAskBook.bestOf Side.bid.opposite = some p →
      (oneAskBook.limitSide Side.bid.opposite).level? p = some l → (3 : UInt64).toNat ≤ l.total →
      MarketFill oneAskBook 2 .bid 3 "t" 10 p l (oneAskBook.market 2 .bid 3 "t" 10)) := by
  have hwf : oneAskBook.WF := insertLimit_wf empty_wf (by decide)
  exact ⟨hwf, market_all_or_nothing hwf 2 .bid 3 "t" 10⟩

/-- **The reduced maker keeps its timestamp.**  A book holding one ask of size 5 at 100 with
timestamp 7 is well formed; a buy of 3 leaves that ask in front with size 2 and timestamp 7,
not 0: a partial fill stamps nothing. -/
theorem market_keeps_maker_timestamp :
    (empty.insertLimit { Order.limit 1 .ask 5 100 "m" with timestamp := 7 }).WF ∧
      ((empty.insertLimit { Order.limit 1 .ask 5 100 "m" with timestamp := 7 }).market 2 .bid 3 "t"
          1700000000000).map (fun r => (r.1.asks.level? 100).map fun l => l.queue) =
        some (some [{ Order.limit 1 .ask 2 100 "m" with timestamp := 7 }]) :=
  ⟨insertLimit_wf empty_wf (by decide), by decide⟩

end Book

end Bourse
