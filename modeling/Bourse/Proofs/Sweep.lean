import Bourse.Proofs.Frame

/-!
# Prices move one way through a market order

A buy order lifts the asks from the lowest price up and a sell order hits the bids from the
highest down.  A market order trades at one level only, but when it drains that level its
cascade runs released stops, each at the best price of the same ladder at its own moment,
possibly much later, after nested groups have drained further levels.  Since the cascade
only ever consumes that one ladder (`Bourse.Proofs.Frame`), its best price only moves one
way, and so does everything the call logs.

`Side.AtOrPast` is the order in which a taker of a side meets prices.  The invariant `Sweep`
says, at every state of a market order's loop, that the prices logged so far are in that
order, that every price left on the maker ladder is at or past all of them, and that every
stop still pending has its trigger at or before every price left there.

* `execute_at_best`: an execution logs the makers it takes whole and then the order itself,
  all at the best price of the maker ladder, and leaves that ladder no new price;
* `release_triggered`: a released stop's trigger is at or before the best price that released
  it;
* `LoopStep.sweep`, `MarketLoop.sweep`: the invariant holds at every state of the loop;
* `market_prices_move_one_way`: on a well-formed book with every stop on its own side, the
  prices a market order appends to the history are non-decreasing for a buy and
  non-increasing for a sell, and every released stop that executes does so at or past its
  trigger.
-/

namespace Bourse

namespace Ladder

/-- Replacing or dropping a level adds no price. -/
theorem keys_setLevel_subset (ld : Ladder) (p : UInt64) (l? : Option Level) :
    (ld.setLevel p l?).keys ⊆ ld.keys := by
  intro q hq
  obtain ⟨e, he, rfl⟩ := List.mem_map.1 hq
  obtain ⟨⟨p', l'⟩, he', hmap⟩ := List.mem_filterMap.1 he
  refine List.mem_map.2 ⟨(p', l'), he', ?_⟩
  dsimp only at hmap
  -- a level is kept as it is, or replaced under its own price
  by_cases hp : p' = p
  · rw [if_pos hp] at hmap
    obtain ⟨l, -, rfl⟩ := Option.map_eq_some_iff.1 hmap
    rfl
  · rw [if_neg hp] at hmap
    cases hmap
    rfl

/-- An order among the levels that pass a test sits in one of them, priced at its key. -/
theorem WF.price_of_mem_filter {ld : Ladder} (h : ld.WF) {keep : UInt64 × Level → Bool}
    {o : Order} (ho : o ∈ (ld.levels.filter keep).flatMap (·.2.queue)) :
    ∃ e ∈ ld.levels, keep e = true ∧ o.price = e.1 := by
  obtain ⟨e, he, hoe⟩ := List.mem_flatMap.1 ho
  obtain ⟨he, hk⟩ := List.mem_filter.1 he
  exact ⟨e, he, hk, (h.level_wf e he).priced o hoe⟩

end Ladder

namespace Book

/-! ## One execution, one release -/

/-- Under the invariant the best price of the ladder a taker of side `side` trades against is
the first it meets: every price of that ladder is at or past it. -/
theorem WF.bestOf_first {b : Book} (hwf : b.WF) {side : Side} {P : UInt64}
    (h : b.bestOf side.opposite = some P) :
    P ∈ (b.limitSide side.opposite).keys ∧
      ∀ q ∈ (b.limitSide side.opposite).keys, side.AtOrPast P q := by
  cases side
  · exact hwf.asks.lowest_eq_some_iff.1 h
  · exact hwf.bids.highest_eq_some_iff.1 h

/-- An execution replaces the level at the best price of the maker ladder by what the fill
left of it, and logs the makers taken whole and then the order, priced at that level. -/
theorem execute_spec {b : Book} {o : Order} {clock : UInt64} {drained : Bool} {b' : Book}
    {fs : List Fill} (hx : b.execute o clock = some (drained, b', fs)) :
    ∃ P l, b.bestOf o.side.opposite = some P ∧ (b.limitSide o.side.opposite).level? P = some l ∧
      drained = (Level.consume l.queue o.size).2.1.isEmpty ∧
      b'.limitSide o.side.opposite = (b.limitSide o.side.opposite).setLevel P (l.afterFill o.size) ∧
      b'.history = b.history ++ ((Level.consume l.queue o.size).1.map
        (fun x => { x with timestamp := stampOf clock }) ++
          [{ o with price := P, timestamp := stampOf clock }]) := by
  obtain ⟨P, b₁, makers, hm, rfl, -⟩ := execute_eq_some hx
  obtain ⟨l, hbest, hl, -, rfl, hdrained, rfl⟩ := matchBest_eq_some hm
  refine ⟨P, l, hbest, hl, hdrained, ?_, by simp⟩
  -- logging and recounting touch no ladder
  have key : ∀ (s : Side) (b₀ : Book) (ld : Ladder) (r : Nat) (hist : List Order),
      ({ { b₀.setLimitSide s ld with resting := r } with history := hist } : Book).limitSide s = ld := by
    intro s b₀ ld r hist
    cases s <;> rfl
  exact key _ _ _ _ _

/-- **An execution trades at the best price.**  It logs, after the history, the makers it
takes whole and then the order itself, all at the best price of the maker ladder, and it
leaves that ladder no price it did not have. -/
theorem execute_at_best {b : Book} (hwf : b.WF) {o : Order} {clock : UInt64} {drained : Bool}
    {b' : Book} {fs : List Fill} (hx : b.execute o clock = some (drained, b', fs)) :
    ∃ P makers, b.bestOf o.side.opposite = some P ∧
      b'.history = b.history ++ (makers ++ [{ o with price := P, timestamp := stampOf clock }]) ∧
      (∀ x ∈ makers, x.price = P) ∧
      (b'.limitSide o.side.opposite).keys ⊆ (b.limitSide o.side.opposite).keys := by
  obtain ⟨P, l, hbest, hl, -, hside, hhist⟩ := execute_spec hx
  have hld := hwf.limitSide o.side.opposite
  have hmem := hld.level?_eq_some_iff.1 hl
  refine ⟨P, _, hbest, hhist, fun x hx => ?_, ?_⟩
  · -- the makers come from the queue of the level at `P`, where every order is priced `P`
    obtain ⟨y, hy, rfl⟩ := List.mem_map.1 hx
    exact (hld.level_wf _ hmem).priced y (Level.mem_of_mem_consume_taken hy)
  · rw [hside]
    exact Ladder.keys_setLevel_subset _ _ _

/-- **A released stop was triggered.**  A stop released after a drain of side `s` had its
trigger at or before the new best price `p` of that ladder, as a taker of the stop's side
meets prices: a buy stop at or below the best ask, a sell stop at or above the best bid. -/
theorem release_triggered {b : Book} (hwf : b.WF) {s : Side} {o : Order}
    (ho : o ∈ (b.release s).2) : ∃ p, b.bestOf s = some p ∧ s.opposite.AtOrPast o.price p := by
  rcases release_spec b s with ⟨-, heq⟩ | ⟨p, hp, htaken, -⟩
  · rw [heq] at ho
    cases ho
  · rw [htaken] at ho
    obtain ⟨e, -, hk, hprice⟩ :=
      (hwf.stopSide s.opposite).price_of_mem_filter ((byId_perm _).subset ho)
    exact ⟨p, hp, hprice ▸ of_decide_eq_true hk⟩

/-! ## Along the stop loop -/

/-- What holds at every state `st` of the loop of a market order of side `side` that met the
book `b₀`, with `logged` what it has appended to the history so far: the frame and the
invariant; the logged prices in the order a taker of side `side` meets prices; every price
left on the maker ladder at or past every logged price; and every pending stop's trigger at
or before every price left there. -/
structure Sweep (side : Side) (b₀ : Book) (st : Book × List (List Order)) (logged : List Order) :
    Prop where
  framed : Framed side b₀ st
  wf : st.1.WF
  history_eq : st.1.history = b₀.history ++ logged
  sorted : (logged.map (·.price)).Pairwise side.AtOrPast
  ahead : ∀ x ∈ logged, ∀ q ∈ (st.1.limitSide side.opposite).keys, side.AtOrPast x.price q
  triggered : ∀ o ∈ st.2.flatten, ∀ q ∈ (st.1.limitSide side.opposite).keys,
    side.AtOrPast o.price q

variable (clock : UInt64)

section Sweep

variable {side : Side} {b₀ : Book}

/-- Before the market order, nothing is logged and nothing is pending. -/
theorem Sweep.init (hwf : b₀.WF) (hown : b₀.StopsOnOwnSide) : Sweep side b₀ (b₀, []) [] where
  framed := Framed.init hown
  wf := hwf
  history_eq := by simp
  sorted := List.Pairwise.nil
  ahead := by simp
  triggered := by simp

/-- A pending stop dropped, or an empty group popped, keeps the invariant. -/
theorem Sweep.shrink {c : Book} {pending pending' : List (List Order)} {logged : List Order}
    (h : Sweep side b₀ (c, pending) logged) (hsub : ∀ o ∈ pending'.flatten, o ∈ pending.flatten) :
    Sweep side b₀ (c, pending') logged :=
  { h with
    framed := { h.framed with pending := fun o ho => h.framed.pending o (hsub o ho) }
    triggered := fun o ho => h.triggered o (hsub o ho) }

/-- **An execution of side `side` keeps the invariant.**  It logs at the best price, which
is at or past everything logged so far and at or before every price it leaves. -/
theorem Sweep.execute {c : Book} {pending : List (List Order)} {logged : List Order}
    (h : Sweep side b₀ (c, pending) logged) {o : Order} (ho : o.side = side) {drained : Bool}
    {c' : Book} {fs : List Fill} (hx : c.execute o clock = some (drained, c', fs)) :
    ∃ logged', Sweep side b₀ (c', pending) logged' := by
  obtain ⟨P, makers, hbest, hhist, hprice, hkeys⟩ := execute_at_best h.wf hx
  rw [ho] at hbest hkeys
  obtain ⟨hPmem, hPfirst⟩ := h.wf.bestOf_first hbest
  -- everything this execution logs is priced `P`
  have hnew : ∀ x ∈ makers ++ [{ o with price := P, timestamp := stampOf clock }], x.price = P := by
    intro x hx
    rcases List.mem_append.1 hx with hx | hx
    · exact hprice x hx
    · rw [List.mem_singleton.1 hx]
  refine ⟨logged ++ (makers ++ [{ o with price := P, timestamp := stampOf clock }]), ?_⟩
  refine ⟨h.framed.execute clock ho hx, execute_wf h.wf hx, ?_, ?_, ?_, ?_⟩
  · rw [hhist, h.history_eq, List.append_assoc]
  · rw [List.map_append, List.pairwise_append]
    refine ⟨h.sorted, List.pairwise_of_forall_mem_list fun a ha a' ha' => ?_, fun a ha a' ha' => ?_⟩
    · obtain ⟨x, hx, rfl⟩ := List.mem_map.1 ha
      obtain ⟨x', hx', rfl⟩ := List.mem_map.1 ha'
      rw [hnew x hx, hnew x' hx']
      exact Side.AtOrPast.refl side P
    · obtain ⟨x, hx, rfl⟩ := List.mem_map.1 ha
      obtain ⟨x', hx', rfl⟩ := List.mem_map.1 ha'
      rw [hnew x' hx']
      exact h.ahead x hx P hPmem
  · intro x hx q hq
    rcases List.mem_append.1 hx with hx | hx
    · exact h.ahead x hx q (hkeys hq)
    · rw [hnew x hx]
      exact hPfirst q (hkeys hq)
  · exact fun o' ho' q hq => h.triggered o' ho' q (hkeys hq)

/-- **A release keeps the invariant.**  The stops it releases were triggered at the best
price, which is at or before every price left on the maker ladder. -/
theorem Sweep.release {c : Book} {pending : List (List Order)} {logged : List Order}
    (h : Sweep side b₀ (c, pending) logged) :
    Sweep side b₀ ((c.release side.opposite).1, pushGroup (c.release side.opposite).2 pending)
      logged where
  framed := h.framed.release
  wf := release_wf h.wf _
  history_eq := by rw [(release_accounting c _).2.2]; exact h.history_eq
  sorted := h.sorted
  ahead := by simpa using h.ahead
  triggered := by
    intro o ho q hq
    simp only [flatten_pushGroup, List.mem_append, release_limitSide] at ho hq
    rcases ho with ho | ho
    · obtain ⟨p, hp, htrig⟩ := release_triggered h.wf ho
      rw [Side.opposite_opposite] at htrig
      exact htrig.trans ((h.wf.bestOf_first hp).2 q hq)
    · exact h.triggered o ho q hq

/-- **One step of the loop keeps the invariant**, for some extension of what is logged. -/
theorem LoopStep.sweep {st st' : Book × List (List Order)} (hs : LoopStep clock st st')
    {logged : List Order} (h : Sweep side b₀ st logged) : ∃ logged', Sweep side b₀ st' logged' := by
  cases hs with
  | pop b rest => exact ⟨logged, h.shrink fun o ho => by simpa using ho⟩
  | turn b stop group rest =>
    have hstop : stop.side = side := h.framed.pending stop (by simp)
    have hrest : Sweep side b₀ (b, pushGroup group rest) logged :=
      h.shrink fun o ho => by simp_all
    rcases stopTurn_cases clock b stop (pushGroup group rest) with
      ⟨-, heq⟩ | ⟨b', fs, hx, heq⟩ | ⟨b', fs, hx, heq⟩ <;> rw [heq]
    · exact ⟨logged, hrest⟩
    · exact hrest.execute clock hstop hx
    · obtain ⟨logged', h'⟩ := hrest.execute clock hstop hx
      rw [hstop]
      exact ⟨logged', h'.release⟩

/-- The market order's own execution, and the release of its drain, start the loop in the
invariant. -/
theorem Sweep.start (hwf : b₀.WF) (hown : b₀.StopsOnOwnSide) {id size : UInt64} {user : String}
    {drained : Bool} {b₁ : Book} {fs : List Fill}
    (hx : b₀.execute (Order.market id side size user) clock = some (drained, b₁, fs)) :
    ∃ logged, Sweep side b₀ (b₁, []) logged :=
  (Sweep.init hwf hown).execute clock rfl hx

/-- ... so it holds at every state of a market order's loop. -/
theorem MarketLoop.sweep (hwf : b₀.WF) (hown : b₀.StopsOnOwnSide) {id size : UInt64}
    {user : String} {st : Book × List (List Order)} (h : MarketLoop clock b₀ id side size user st) :
    ∃ logged, Sweep side b₀ st logged := by
  refine MarketLoop.invariant clock (fun st => ∃ logged, Sweep side b₀ st logged)
    (fun _ _ hx => ?_) (fun _ _ hs ⟨_, hst⟩ => LoopStep.sweep clock hs hst) h
  obtain ⟨logged, h₁⟩ := Sweep.start clock hwf hown hx
  exact ⟨logged, h₁.release⟩

/-- The book a market order leaves satisfies the invariant, with some stack of stops. -/
theorem market_sweep (hwf : b₀.WF) (hown : b₀.StopsOnOwnSide) {id size : UInt64} {user : String}
    {b' : Book} {fs : List Fill} (hm : b₀.market id side size user clock = some (b', fs)) :
    ∃ pending logged, Sweep side b₀ (b', pending) logged := by
  rcases market_marketLoop clock hm with ⟨b₁, fs₁, hx, rfl⟩ | ⟨pending, hloop⟩
  · exact ⟨[], Sweep.start clock hwf hown hx⟩
  · exact ⟨pending, hloop.sweep clock hwf hown⟩

end Sweep

/-- **Prices move one way within a market order.**  On a well-formed book with every stop on
its own side, a market order of side `side` appends to the history the makers it takes, the
order itself, and every released stop with its makers, at prices that never go back: non-
decreasing for a buy, non-increasing for a sell.  Every released stop that executes, at
whatever depth of the cascade, logs itself at a price at or past its trigger: at or above it
for a buy stop, at or below it for a sell stop. -/
theorem market_prices_move_one_way {b : Book} (hwf : b.WF) (hown : b.StopsOnOwnSide)
    {id : UInt64} {side : Side} {size : UInt64} {user : String} {b' : Book} {fs : List Fill}
    (hm : b.market id side size user clock = some (b', fs)) :
    (∃ logged, b'.history = b.history ++ logged ∧
      (side = .bid → (logged.map (·.price)).Pairwise (· ≤ ·)) ∧
      (side = .ask → (logged.map (·.price)).Pairwise (· ≥ ·))) ∧
    ∀ c stop group rest, MarketLoop clock b id side size user (c, (stop :: group) :: rest) →
      ∀ drained c' fs', c.execute stop clock = some (drained, c', fs') →
        ∃ P makers, c'.history = c.history ++
            (makers ++ [{ stop with price := P, timestamp := stampOf clock }]) ∧
          (stop.side = .bid → stop.price ≤ P) ∧ (stop.side = .ask → P ≤ stop.price) := by
  refine ⟨?_, fun c stop group rest hloop drained c' fs' hx => ?_⟩
  · obtain ⟨_, logged, h⟩ := market_sweep clock hwf hown hm
    refine ⟨logged, h.history_eq, fun hside => ?_, fun hside => ?_⟩ <;> subst hside
    · exact h.sorted
    · exact h.sorted
  · obtain ⟨logged, h⟩ := hloop.sweep clock hwf hown
    have hstop : stop.side = side := h.framed.pending stop (by simp)
    obtain ⟨P, makers, hbest, hhist, -, -⟩ := execute_at_best h.wf hx
    rw [hstop] at hbest
    -- the stop was triggered at or before every price left, `P` among them
    have htrig := h.triggered stop (by simp) P (h.wf.bestOf_first hbest).1
    refine ⟨P, makers, hhist, fun hbid => ?_, fun hask => ?_⟩
    · rw [hbid] at hstop
      subst hstop
      exact htrig
    · rw [hask] at hstop
      subst hstop
      exact htrig

/-- Asks of 1 at 100 and 5 at 150, and buy stops of 1 at 120 and 200. -/
def stopLadderBook : Book :=
  (((empty.insertLimit (Order.limit 1 .ask 1 100 "m")).insertLimit
    (Order.limit 2 .ask 5 150 "m")).insertStop (Order.stop 3 .bid 1 120 "s")).insertStop
      (Order.stop 4 .bid 1 200 "s")

theorem stopLadderBook_wf : stopLadderBook.WF :=
  insertStop_wf (insertStop_wf (insertLimit_wf (insertLimit_wf empty_wf (by decide)) (by decide))
    (by decide)) (by decide)

theorem stopLadderBook_stopsOnOwnSide : stopLadderBook.StopsOnOwnSide :=
  (((StopsOnOwnSide.empty.insertLimit _).insertLimit _).insertStop _).insertStop _

/-- A buy of 1 drains the ask at 100 and releases the stop at 120, which buys 1 at 150: the
prices logged rise. -/
theorem market_prices_move_one_way_stop_at_150 :
    stopLadderBook.WF ∧ stopLadderBook.StopsOnOwnSide ∧
    ∃ b' fs, stopLadderBook.market 5 .bid 1 "t" 10 = some (b', fs) ∧
      ∃ logged, b'.history = stopLadderBook.history ++ logged ∧
        (logged.map (·.price)).Pairwise (· ≤ ·) := by
  obtain ⟨⟨b', fs⟩, hm⟩ : ∃ r, stopLadderBook.market 5 .bid 1 "t" 10 = some r :=
    Option.isSome_iff_exists.1 (by decide +kernel)
  obtain ⟨logged, hhist, hbid, -⟩ :=
    (market_prices_move_one_way 10 stopLadderBook_wf stopLadderBook_stopsOnOwnSide hm).1
  exact ⟨stopLadderBook_wf, stopLadderBook_stopsOnOwnSide, b', fs, hm, logged, hhist, hbid rfl⟩

end Book

end Bourse
