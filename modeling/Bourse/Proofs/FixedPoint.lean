import Bourse.Proofs.Sweep

/-!
# The stop cascade ends at rest

A release sees the best price of the drained ladder at its own moment and takes every stop
that price triggers.  The cascade of a market order may drain several levels, each drain
followed by a release, and stops whose trigger is met before the call stay resting until a
drain releases them.  This file shows that when the cascade returns, no stop it watches is
still triggered: the last drain was followed by a release, and nothing after it moves the
best price, since a fill that leaves its level keeps the level.

* `execute_bestOf_of_not_drained`: a fill that does not drain its level keeps the best price
  of the ladder it trades against;
* `release_kept_untriggered`, `release_atRest`: after a release no stop left in the ladder it
  took from is triggered at the best price;
* `Settling`, `LoopStep.settling`, `MarketLoop.settling`: this holds at every state of the
  loop of a market order that drained its level;
* `cascade_ends_at_rest`: when a market order drains a level, through itself or a released
  stop, it returns with the opposite limit ladder empty or every stop of its own side
  untriggered at the final best price, stops already triggered before the call included.
-/

namespace Bourse

namespace Ladder

/-- Replacing a level by another keeps the prices. -/
theorem keys_setLevel_some (ld : Ladder) (p : UInt64) (l : Level) :
    (ld.setLevel p (some l)).keys = ld.keys := by
  obtain ⟨ls⟩ := ld
  simp only [setLevel, keys, Option.map_some]
  induction ls with
  | nil => rfl
  | cons e rest ih => by_cases hp : e.1 = p <;> simp [hp, ih]

theorem lowest_eq_head?_keys (ld : Ladder) : ld.lowest = ld.keys.head? := by
  simp [lowest, keys, List.head?_map]

theorem highest_eq_getLast?_keys (ld : Ladder) : ld.highest = ld.keys.getLast? := by
  simp [highest, keys, List.getLast?_map]

end Ladder

namespace Book

/-- The best price of a limit ladder depends on its prices only. -/
theorem bestOf_eq_of_keys {b b' : Book} {s : Side}
    (h : (b'.limitSide s).keys = (b.limitSide s).keys) : b'.bestOf s = b.bestOf s := by
  cases s
  · change b'.bids.highest = b.bids.highest
    rw [Ladder.highest_eq_getLast?_keys, Ladder.highest_eq_getLast?_keys]
    exact congrArg List.getLast? h
  · change b'.asks.lowest = b.asks.lowest
    rw [Ladder.lowest_eq_head?_keys, Ladder.lowest_eq_head?_keys]
    exact congrArg List.head? h

/-- **A fill that leaves its level keeps the best price** of the ladder it trades against. -/
theorem execute_bestOf_of_not_drained {b : Book} {o : Order} {clock : UInt64} {b' : Book}
    {fs : List Fill} (hx : b.execute o clock = some (false, b', fs)) :
    b'.bestOf o.side.opposite = b.bestOf o.side.opposite := by
  obtain ⟨P, l, -, -, hdrained, hside, -⟩ := execute_spec hx
  apply bestOf_eq_of_keys
  rw [hside]
  -- the level stays, replaced by what the fill left of it
  simp only [Level.afterFill, ← hdrained, Bool.false_eq_true, if_false]
  exact Ladder.keys_setLevel_some _ _ _

/-- **A release leaves no triggered stop behind.**  After a release following a drain of
side `s`, whose ladder then had best price `p`, no stop left in the ladder it took from is
triggered at `p`: every buy stop left is above the best ask, every sell stop below the best
bid. -/
theorem release_kept_untriggered {b : Book} (hwf : b.WF) {s : Side} {p : UInt64}
    (hp : b.bestOf s = some p) {o : Order}
    (ho : o ∈ ((b.release s).1.stopSide s.opposite).orders) : ¬ s.opposite.AtOrPast o.price p := by
  rcases release_spec b s with ⟨hnone, -⟩ | ⟨p', hp', -, hkept⟩
  · rw [hp] at hnone
    cases hnone
  · obtain rfl : p' = p := Option.some.inj (hp'.symm.trans hp)
    -- the stops kept are those of the levels the best price has not reached
    have ho' : o ∈ ((b.stopSide s.opposite).levels.filter
        fun e => !decide (s.opposite.AtOrPast e.1 p')).flatMap (·.2.queue) := by
      rw [← hkept]
      exact ho
    obtain ⟨e, -, hk, hprice⟩ := (hwf.stopSide s.opposite).price_of_mem_filter ho'
    rw [hprice]
    simpa using hk

/-- No stop of side `side` resting in `b` is triggered at the best price of the ladder it
watches: every buy stop's trigger is above the best ask, every sell stop's below the best
bid. -/
def AtRest (side : Side) (b : Book) : Prop :=
  ∀ p, b.bestOf side.opposite = some p → ∀ o ∈ (b.stopSide side).orders, ¬ side.AtOrPast o.price p

/-- After the release that follows a drain of the other side, the stops of side `side` are
at rest. -/
theorem release_atRest {b : Book} (hwf : b.WF) (side : Side) :
    AtRest side (b.release side.opposite).1 := by
  intro p hp o ho
  rw [release_bestOf] at hp
  have h := release_kept_untriggered hwf hp (by rwa [Side.opposite_opposite])
  rwa [Side.opposite_opposite] at h

/-! ## Along the stop loop -/

/-- What holds at every state of the loop of a market order of side `side` that met `b₀`
and drained its level: the frame, the invariant, and the stops of side `side` at rest. -/
structure Settling (side : Side) (b₀ : Book) (st : Book × List (List Order)) : Prop where
  framed : Framed side b₀ st
  wf : st.1.WF
  atRest : AtRest side st.1

variable (clock : UInt64)

section Settling

variable {side : Side} {b₀ : Book}

/-- **One step of the loop keeps the stops at rest.**  A stop that cannot trade changes
nothing; one that fills without draining keeps the best price; one that drains its level is
followed by the release that puts the stops at rest again. -/
theorem LoopStep.settling {st st' : Book × List (List Order)} (hs : LoopStep clock st st')
    (h : Settling side b₀ st) : Settling side b₀ st' := by
  have hframed := LoopStep.framed clock hs h.framed
  have hwf := LoopStep.book_invariant clock WF (fun _ _ _ _ _ hb hx => execute_wf hb hx)
    (fun _ s hb => release_wf hb s) hs h.wf
  refine ⟨hframed, hwf, ?_⟩
  cases hs with
  | pop b rest => exact h.atRest
  | turn b stop group rest =>
    have hstop : stop.side = side := h.framed.pending stop (by simp)
    rcases stopTurn_cases clock b stop (pushGroup group rest) with
      ⟨-, heq⟩ | ⟨b', fs, hx, heq⟩ | ⟨b', fs, hx, heq⟩ <;> rw [heq]
    · exact h.atRest
    · intro p hp o ho
      rw [← hstop, execute_bestOf_of_not_drained hx, hstop] at hp
      rw [execute_stopSide hx] at ho
      exact h.atRest p hp o ho
    · rw [hstop]
      exact release_atRest (execute_wf h.wf hx) side

/-- ... so the stops are at rest at every state of a market order's loop. -/
theorem MarketLoop.settling (hwf : b₀.WF) (hown : b₀.StopsOnOwnSide) {id size : UInt64}
    {user : String} {st : Book × List (List Order)} (h : MarketLoop clock b₀ id side size user st) :
    Settling side b₀ st :=
  MarketLoop.invariant clock (Settling side b₀)
    (fun _ _ hx => ⟨Framed.start clock hown hx, release_wf (execute_wf hwf hx) _,
      release_atRest (execute_wf hwf hx) side⟩)
    (fun _ _ hs hst => LoopStep.settling clock hs hst) h

end Settling

/-- A market order drains a level, through itself or a stop its cascade runs, only if its own
execution drained one: stops run only after that. -/
theorem market_drained_of_drain {b : Book} {id : UInt64} {side : Side} {size : UInt64}
    {user : String}
    (h : ∃ c o c' fs', MarketExec clock b id side size user c o ∧
      c.execute o clock = some (true, c', fs')) :
    ∃ b₁ fs₁, b.execute (Order.market id side size user) clock = some (true, b₁, fs₁) := by
  obtain ⟨c, o, c', fs', ⟨rfl, rfl⟩ | ⟨group, rest, b₁, fs₁, hx, -⟩, hx'⟩ := h
  · exact ⟨c', fs', hx'⟩
  · exact ⟨b₁, fs₁, hx⟩

/-- **The stop cascade reaches a fixed point.**  On a well-formed book with every stop on its
own side, when a buy drains an ask level, through itself or a released stop, it returns with
the limit asks empty or every buy stop still resting above the final best ask; when a sell
drains a bid level, it returns with the limit bids empty or every sell stop still resting
below the final best bid.  This covers stops whose trigger was met before the call. -/
theorem cascade_ends_at_rest {b : Book} (hwf : b.WF) (hown : b.StopsOnOwnSide) {id : UInt64}
    {side : Side} {size : UInt64} {user : String} {b' : Book} {fs : List Fill}
    (hdrain : ∃ c o c' fs', MarketExec clock b id side size user c o ∧
      c.execute o clock = some (true, c', fs'))
    (hm : b.market id side size user clock = some (b', fs)) :
    (side = .bid → b'.asks.levels = [] ∨
      ∃ p, b'.bestAsk = some p ∧ ∀ o ∈ b'.stopBids.orders, p < o.price) ∧
    (side = .ask → b'.bids.levels = [] ∨
      ∃ p, b'.bestBid = some p ∧ ∀ o ∈ b'.stopAsks.orders, o.price < p) := by
  obtain ⟨b₁, fs₁, hx⟩ := market_drained_of_drain clock hdrain
  -- the market order drained, so the book it returns is a state of its loop
  have hrest : AtRest side b' := by
    rcases market_marketLoop clock hm with ⟨b₂, fs₂, hx', -⟩ | ⟨pending, hloop⟩
    · rw [hx] at hx'
      simp at hx'
    · exact (hloop.settling clock hwf hown).atRest
  refine ⟨fun hside => ?_, fun hside => ?_⟩ <;> subst hside
  · rcases hl : b'.asks.levels with _ | ⟨e, rest⟩
    · exact Or.inl rfl
    · have hbest : b'.bestAsk = some e.1 := by simp [bestAsk, Ladder.lowest, hl]
      exact Or.inr ⟨e.1, hbest, fun o ho => UInt64.not_le.1 (hrest e.1 hbest o ho)⟩
  · rcases hl : b'.bids.levels with _ | ⟨e, rest⟩
    · exact Or.inl rfl
    · obtain ⟨p, hp⟩ : ∃ p, b'.bestBid = some p := by
        rw [bestBid, Ladder.highest_eq_getLast?_keys]
        exact Option.isSome_iff_exists.1 (List.getLast?_isSome.2 (by simp [Ladder.keys, hl]))
      exact Or.inr ⟨p, hp, fun o ho => UInt64.not_le.1 (hrest p hp o ho)⟩

/-- On the book of asks at 100 and 150 and buy stops at 120 and 200, a buy of 1 drains 100 and
releases the stop at 120, which buys at 150 without draining; the book returned has best ask
150 and the stop at 200 still resting above it. -/
theorem cascade_ends_at_rest_stop_above_150 :
    stopLadderBook.WF ∧ stopLadderBook.StopsOnOwnSide ∧
    (∃ c o c' fs', MarketExec 10 stopLadderBook 5 .bid 1 "t" c o ∧
      c.execute o 10 = some (true, c', fs')) ∧
    ∃ b' fs, stopLadderBook.market 5 .bid 1 "t" 10 = some (b', fs) ∧
      (b'.asks.levels = [] ∨ ∃ p, b'.bestAsk = some p ∧ ∀ o ∈ b'.stopBids.orders, p < o.price) := by
  -- the buy's own execution drains the ask at 100
  obtain ⟨⟨d, c', fs'⟩, hx, hd⟩ := (Option.any_eq_true _ _).1
    (show (stopLadderBook.execute (Order.market 5 .bid 1 "t") 10).any (·.1) = true by
      decide +kernel)
  obtain rfl : d = true := hd
  have hdrain : ∃ c o c' fs', MarketExec 10 stopLadderBook 5 .bid 1 "t" c o ∧
      c.execute o 10 = some (true, c', fs') := ⟨_, _, c', fs', Or.inl ⟨rfl, rfl⟩, hx⟩
  obtain ⟨⟨b', fs⟩, hm⟩ : ∃ r, stopLadderBook.market 5 .bid 1 "t" 10 = some r :=
    Option.isSome_iff_exists.1 (by decide +kernel)
  exact ⟨stopLadderBook_wf, stopLadderBook_stopsOnOwnSide, hdrain, b', fs, hm,
    (cascade_ends_at_rest 10 stopLadderBook_wf stopLadderBook_stopsOnOwnSide hdrain hm).1 rfl⟩

end Book

end Bourse
