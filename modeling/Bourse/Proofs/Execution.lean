import Bourse.Book.Match
import Bourse.Proofs.Ladder

/-!
# One execution, one release, one turn of the stop loop

The market path of the book is built from three steps: `Book.matchBest` consumes the best
opposite level, `Book.execute` logs the makers and the taker, and `Book.release` takes a
group of triggered stops off a stop ladder.  The stop loop `Book.runStops` repeats one
turn (`Book.stopTurn`): run the next stop of the top group and, if it drained its level,
push the group it releases.

This file takes each step apart once (`matchBest_eq_some`, `execute_eq_some`,
`runStops_turn`) and says what each leaves alone, so that the invariants of the book and
the correctness of the cascade are proved without unfolding the steps again:

* an execution touches only the maker side's limit ladder and the history
  (`execute_stopAsks`, `execute_stopBids`, `execute_limitSide_taker`);
* a release moves orders from one stop ladder into the group it returns
  (`release_stops_count`);
* `runStops_invariant` lifts any property kept by a turn to the whole loop, and
  `market_invariant` to a whole market order with its cascade.
-/

namespace Bourse

namespace Level

/-- The level left after a taker consumed `size` from it: none when the queue drained. -/
def afterFill (l : Level) (size : UInt64) : Option Level :=
  if (consume l.queue size).2.1.isEmpty then none
  else some { queue := (consume l.queue size).2.1, total := l.total - (consume l.queue size).2.2 }

/-- The orders left by a fill, whether or not the level stays. -/
theorem queue_afterFill (l : Level) (size : UInt64) :
    (l.afterFill size).toList.flatMap (·.queue) = (consume l.queue size).2.1 := by
  unfold afterFill
  split
  · rename_i h
    simpa using (List.isEmpty_iff.1 h).symm
  · simp

/-- What is left of a well-formed level after a fill is well formed at the same price. -/
theorem WF.afterFill {l : Level} {p : UInt64} (hl : l.WF p) (size : UInt64) :
    ∀ l' ∈ l.afterFill size, l'.WF p := by
  intro l' hl'
  unfold Level.afterFill at hl'
  split at hl'
  · simp at hl'
  · rename_i hne
    simp only [Option.mem_def, Option.some.injEq] at hl'
    subst hl'
    have hsum := consume_sizeSum l.queue size
    refine ⟨by simpa using hne, ?_, ?_, ?_⟩
    · show l.total - (consume l.queue size).2.2 = sizeSum (consume l.queue size).2.1
      rw [hl.total_eq]
      omega
    · intro o ho
      obtain ⟨o', ho', -, hpos⟩ := mem_consume_left ho
      exact hpos (hl.sized o' ho')
    · intro o ho
      obtain ⟨o', ho', hres, -⟩ := mem_consume_left ho
      rw [hres.price_eq]
      exact hl.priced o' ho'

end Level

namespace Book

/-! ## Replacing a limit ladder -/

section SetLimitSide

variable (b : Book) (ld : Ladder)

@[simp] theorem setLimitSide_bid : b.setLimitSide .bid ld = { b with bids := ld } := rfl

@[simp] theorem setLimitSide_ask : b.setLimitSide .ask ld = { b with asks := ld } := rfl

@[simp] theorem setLimitSide_stopAsks (s : Side) : (b.setLimitSide s ld).stopAsks = b.stopAsks := by
  cases s <;> rfl

@[simp] theorem setLimitSide_stopBids (s : Side) : (b.setLimitSide s ld).stopBids = b.stopBids := by
  cases s <;> rfl

@[simp] theorem setLimitSide_history (s : Side) : (b.setLimitSide s ld).history = b.history := by
  cases s <;> rfl

@[simp] theorem setLimitSide_resting (s : Side) : (b.setLimitSide s ld).resting = b.resting := by
  cases s <;> rfl

@[simp] theorem limitSide_setLimitSide (s : Side) : (b.setLimitSide s ld).limitSide s = ld := by
  cases s <;> rfl

@[simp] theorem limitSide_setLimitSide_opposite (s : Side) :
    (b.setLimitSide s ld).limitSide s.opposite = b.limitSide s.opposite := by
  cases s <;> rfl

end SetLimitSide

/-! ## Taking a market execution apart -/

/-- A match found the best price of the maker side and a level there whose total covers the
size; the level is replaced by what the fill left of it, and the makers taken whole come
out stamped. -/
theorem matchBest_eq_some {b : Book} {taker : Side} {size now price : UInt64} {drained : Bool}
    {b' : Book} {makers : List Order}
    (h : b.matchBest taker size now = some (price, drained, b', makers)) :
    ∃ l, b.bestOf taker.opposite = some price ∧
      (b.limitSide taker.opposite).level? price = some l ∧ size.toNat ≤ l.total ∧
      makers = (Level.consume l.queue size).1.map (fun o => { o with timestamp := now }) ∧
      drained = (Level.consume l.queue size).2.1.isEmpty ∧
      b' = { b.setLimitSide taker.opposite ((b.limitSide taker.opposite).setLevel price
          (l.afterFill size)) with resting := b.resting - makers.length } := by
  dsimp only [matchBest] at h
  split at h
  · simp at h
  · rename_i p hp
    split at h
    · simp at h
    · rename_i l hl
      split at h
      · simp at h
      · rename_i hcover
        simp only [Option.some.injEq, Prod.mk.injEq] at h
        obtain ⟨rfl, rfl, rfl, rfl⟩ := h
        refine ⟨l, hp, hl, by omega, rfl, rfl, ?_⟩
        simp [Level.afterFill]

/-- An execution is a match followed by logging the makers and then the order itself,
priced at the level and stamped; the fills announce exactly what was logged. -/
theorem execute_eq_some {b : Book} {o : Order} {clock : UInt64} {drained : Bool} {b' : Book}
    {fs : List Fill} (h : b.execute o clock = some (drained, b', fs)) :
    ∃ price b₁ makers, b.matchBest o.side o.size (stampOf clock) = some (price, drained, b₁, makers) ∧
      b' = { b₁ with history := b₁.history ++
        (makers ++ [{ o with price, timestamp := stampOf clock }]) } ∧
      fs = (makers ++ [{ o with price, timestamp := stampOf clock }]).map Order.fill := by
  dsimp only [execute] at h
  split at h
  · simp at h
  · rename_i price d b₁ makers hm
    simp only [Option.some.injEq, Prod.mk.injEq] at h
    obtain ⟨rfl, rfl, rfl⟩ := h
    exact ⟨price, b₁, makers, hm, rfl, rfl⟩

/-- An execution leaves both stop ladders alone. -/
theorem execute_stopAsks {b : Book} {o : Order} {clock : UInt64} {drained : Bool} {b' : Book}
    {fs : List Fill} (h : b.execute o clock = some (drained, b', fs)) : b'.stopAsks = b.stopAsks := by
  obtain ⟨price, b₁, makers, hm, rfl, -⟩ := execute_eq_some h
  obtain ⟨l, -, -, -, -, -, rfl⟩ := matchBest_eq_some hm
  simp

theorem execute_stopBids {b : Book} {o : Order} {clock : UInt64} {drained : Bool} {b' : Book}
    {fs : List Fill} (h : b.execute o clock = some (drained, b', fs)) : b'.stopBids = b.stopBids := by
  obtain ⟨price, b₁, makers, hm, rfl, -⟩ := execute_eq_some h
  obtain ⟨l, -, -, -, -, -, rfl⟩ := matchBest_eq_some hm
  simp

/-- An execution leaves the limit ladder of the order's own side alone. -/
theorem execute_limitSide_taker {b : Book} {o : Order} {clock : UInt64} {drained : Bool}
    {b' : Book} {fs : List Fill} (h : b.execute o clock = some (drained, b', fs)) :
    b'.limitSide o.side = b.limitSide o.side := by
  obtain ⟨price, b₁, makers, hm, rfl, -⟩ := execute_eq_some h
  obtain ⟨l, -, -, -, -, -, rfl⟩ := matchBest_eq_some hm
  -- the match replaced the ladder of the other side, and logging touches no ladder
  have key : ∀ (s : Side) (b₀ : Book) (ld : Ladder) (r : Nat) (hist : List Order),
      ({ { b₀.setLimitSide s.opposite ld with resting := r } with history := hist } : Book).limitSide s =
        b₀.limitSide s := by
    intro s b₀ ld r hist
    cases s <;> rfl
  exact key _ _ _ _ _

/-- A fill replaces one level of a well-formed ladder by what it left: the orders before and
after that level stay as they are. -/
theorem orders_setLevel_afterFill {ld : Ladder} (h : ld.WF) {p : UInt64} {l : Level}
    (hl : (p, l) ∈ ld.levels) (size : UInt64) :
    ∃ before after, ld.orders = before ++ l.queue ++ after ∧
      (ld.setLevel p (l.afterFill size)).orders = before ++ (Level.consume l.queue size).2.1 ++ after := by
  obtain ⟨pre, post, hls, hls'⟩ := Ladder.levels_setLevel h hl (l.afterFill size)
  refine ⟨pre.flatMap (·.2.queue), post.flatMap (·.2.queue), by simp [Ladder.orders, hls], ?_⟩
  rw [← Level.queue_afterFill]
  simp [Ladder.orders, hls', List.flatMap_map]

/-- A fill of a well-formed ladder takes out exactly the makers consumed whole. -/
theorem count_setLevel_afterFill {ld : Ladder} (h : ld.WF) {p : UInt64} {l : Level}
    (hl : (p, l) ∈ ld.levels) (size : UInt64) :
    (ld.setLevel p (l.afterFill size)).count + (Level.consume l.queue size).1.length = ld.count := by
  obtain ⟨before, after, h₁, h₂⟩ := orders_setLevel_afterFill h hl size
  have := Level.consume_length l.queue size
  simp only [Ladder.count_eq, h₁, h₂, List.length_append]
  omega

/-! ## Releasing stops -/

end Book

/-- Sorting by id loses and adds nothing. -/
theorem byId_perm (os : List Order) : List.Perm (byId os) os := List.mergeSort_perm os _

theorem length_byId (os : List Order) : (byId os).length = os.length :=
  (byId_perm os).length_eq

namespace Book

/-- A release moves the orders it returns out of one stop ladder and nothing else: the two
stop ladders together lose exactly as many orders as the group holds. -/
theorem release_stops_count (b : Book) (s : Side) :
    (b.release s).1.stopAsks.count + (b.release s).1.stopBids.count + (b.release s).2.length =
      b.stopAsks.count + b.stopBids.count := by
  cases s with
  | ask =>
    simp only [release]
    split
    · simp
    · rename_i p _
      have := (Ladder.orders_takeAtOrBelow_perm b.stopBids p).length_eq
      simp only [List.length_append] at this
      simp only [Ladder.count_eq, length_byId]
      omega
  | bid =>
    simp only [release]
    split
    · simp
    · rename_i p _
      have := (Ladder.orders_takeAtOrAbove_perm b.stopAsks p).length_eq
      simp only [List.length_append] at this
      simp only [Ladder.count_eq, length_byId]
      omega

/-! ## The stop loop, one turn at a time -/

variable (clock : UInt64)

/-- One turn of the stop loop: run `stop` as a market order and, when it drains its level,
push the group it releases on the pending stack.  A stop that cannot trade is dropped. -/
def stopTurn (b : Book) (stop : Order) (pending : List (List Order)) :
    Book × List (List Order) × List Fill :=
  match b.execute stop clock with
  | none => (b, pending, [])
  | some (false, b', fs) => (b', pending, fs)
  | some (true, b', fs) => ((b'.release stop.side.opposite).1,
      pushGroup (b'.release stop.side.opposite).2 pending, fs)

@[simp] theorem runStops_zero (b : Book) (pending : List (List Order)) (fills : List Fill) :
    runStops clock 0 b pending fills = (b, fills) := by
  cases pending <;> rfl

@[simp] theorem runStops_nil (fuel : Nat) (b : Book) (fills : List Fill) :
    runStops clock fuel b [] fills = (b, fills) := by
  cases fuel <;> rfl

theorem runStops_empty_group (fuel : Nat) (b : Book) (rest : List (List Order))
    (fills : List Fill) : runStops clock (fuel + 1) b ([] :: rest) fills =
      runStops clock fuel b rest fills := rfl

/-- A turn of the loop on a non-empty group pops the stop, and the group with it when it
was the last one. -/
theorem runStops_turn (fuel : Nat) (b : Book) (stop : Order) (group : List Order)
    (rest : List (List Order)) (fills : List Fill) :
    runStops clock (fuel + 1) b ((stop :: group) :: rest) fills =
      runStops clock fuel (stopTurn clock b stop (pushGroup group rest)).1
        (stopTurn clock b stop (pushGroup group rest)).2.1
        (fills ++ (stopTurn clock b stop (pushGroup group rest)).2.2) := by
  simp only [runStops, stopTurn]
  split <;> simp_all

/-- **The loop keeps what each turn keeps.**  A property of the book, the pending stack and
the fills so far that survives dropping an empty group and one turn holds when the loop
stops, for some stack left over. -/
theorem runStops_invariant (P : Book → List (List Order) → List Fill → Prop)
    (hgroup : ∀ b rest fills, P b ([] :: rest) fills → P b rest fills)
    (hturn : ∀ b stop group rest fills, P b ((stop :: group) :: rest) fills →
      P (stopTurn clock b stop (pushGroup group rest)).1
        (stopTurn clock b stop (pushGroup group rest)).2.1
        (fills ++ (stopTurn clock b stop (pushGroup group rest)).2.2))
    (fuel : Nat) (b : Book) (pending : List (List Order)) (fills : List Fill)
    (h : P b pending fills) :
    ∃ pending', P (runStops clock fuel b pending fills).1 pending'
      (runStops clock fuel b pending fills).2 := by
  induction fuel generalizing b pending fills with
  | zero => exact ⟨pending, by simpa using h⟩
  | succ fuel ih =>
    rcases pending with _ | ⟨_ | ⟨stop, group⟩, rest⟩
    · exact ⟨[], by simpa using h⟩
    · rw [runStops_empty_group]
      exact ih b rest fills (hgroup b rest fills h)
    · rw [runStops_turn]
      exact ih _ _ _ (hturn b stop group rest fills h)

/-- What one turn can do: drop the stop, run it without draining, or run it, drain its level
and push the group that drain releases. -/
theorem stopTurn_cases (b : Book) (stop : Order) (pending : List (List Order)) :
    (b.execute stop clock = none ∧ stopTurn clock b stop pending = (b, pending, [])) ∨
    (∃ b' fs, b.execute stop clock = some (false, b', fs) ∧
      stopTurn clock b stop pending = (b', pending, fs)) ∨
    (∃ b' fs, b.execute stop clock = some (true, b', fs) ∧
      stopTurn clock b stop pending = ((b'.release stop.side.opposite).1,
        pushGroup (b'.release stop.side.opposite).2 pending, fs)) := by
  unfold stopTurn
  split
  · rename_i h; exact Or.inl ⟨h, rfl⟩
  · rename_i b' fs h; exact Or.inr (Or.inl ⟨b', fs, h, rfl⟩)
  · rename_i b' fs h; exact Or.inr (Or.inr ⟨b', fs, h, rfl⟩)

section BookInvariant

variable (P : Book → Prop)
  (hexec : ∀ b o b' drained fs, P b → b.execute o clock = some (drained, b', fs) → P b')
  (hrel : ∀ b s, P b → P (b.release s).1)
include hexec hrel

/-- A property of the book kept by every execution and every release is kept by a turn. -/
theorem stopTurn_invariant (b : Book) (stop : Order) (pending : List (List Order)) (h : P b) :
    P (stopTurn clock b stop pending).1 := by
  rcases stopTurn_cases clock b stop pending with ⟨-, heq⟩ | ⟨b', fs, hx, heq⟩ | ⟨b', fs, hx, heq⟩
  · rw [heq]; exact h
  · rw [heq]; exact hexec b stop b' false fs h hx
  · rw [heq]; exact hrel b' _ (hexec b stop b' true fs h hx)

/-- ... and by a whole cascade. -/
theorem cascade_invariant (b : Book) (s : Side) (h : P b) : P (b.cascade s clock).1 := by
  obtain ⟨_, hp⟩ := runStops_invariant clock (fun b _ _ => P b) (fun _ _ _ h => h)
    (fun b stop _ _ _ h => stopTurn_invariant clock P hexec hrel b stop _ h) _ (b.release s).1
    (pushGroup (b.release s).2 []) [] (hrel b s h)
  exact hp

/-- **A market order keeps what its steps keep.**  A property of the book kept by every
execution and every release holds after any market order, cascade included. -/
theorem market_invariant {b b' : Book} {id : UInt64} {side : Side} {size : UInt64}
    {user : String} {fs : List Fill} (h : P b)
    (hm : b.market id side size user clock = some (b', fs)) : P b' := by
  unfold market at hm
  split at hm
  · simp at hm
  · rename_i b₁ fs₁ hx
    simp only [Option.some.injEq, Prod.mk.injEq] at hm
    rw [← hm.1]
    exact hexec b _ b₁ false fs₁ h hx
  · rename_i b₁ fs₁ hx
    simp only [Option.some.injEq, Prod.mk.injEq] at hm
    rw [← hm.1]
    exact cascade_invariant clock P hexec hrel b₁ side.opposite (hexec b _ b₁ true fs₁ h hx)

end BookInvariant

end Book

end Bourse
