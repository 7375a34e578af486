import Mathlib
import Bourse.Proofs.Execution

/-!
# The stop loop is a depth-first recursion

The book runs a stop cascade with an explicit stack of pending groups (`Book.runStops`).
What it is meant to compute is a plain recursion: run the released stops of a group in
order; a stop that cannot trade is dropped; a stop that drains its level releases a group of
its own, which runs to completion before the next stop of the outer group.

`RunsGroup` states that recursion as big-step rules, and `MarketRef` a whole market order
on top of it.  The main result, `market_iff_depthFirst`, says that a market order of the
book gives exactly the result the rules give, the fills announced included, for every book
and every order.  It rests on three lemmas:

* `runStops_of_runsGroup`: a derivation for a group takes the loop from that group on top of
  any stack down to that stack, with fuel to spare whenever the loop had fuel for every
  stop it could still run;
* `cascade_of_runsGroup`: so the fuel `Book.cascade` gives is always enough;
* `runsGroup_exists`: every group has a derivation, by induction on the number of stops
  resting or pending, which no step increases (`stopCount_of_runsGroup`).
-/

namespace Bourse

namespace Book

variable (clock : UInt64)

/-- The stops resting in both stop ladders. -/
def stopCount (b : Book) : Nat := b.stopAsks.count + b.stopBids.count

/-- The stops waiting in a stack of released groups. -/
def stackSize (pending : List (List Order)) : Nat := (pending.map List.length).sum

@[simp] theorem stackSize_nil : stackSize [] = 0 := rfl

@[simp] theorem stackSize_cons (group : List Order) (pending : List (List Order)) :
    stackSize (group :: pending) = group.length + stackSize pending := by
  simp [stackSize]

@[simp] theorem stackSize_pushGroup (group : List Order) (pending : List (List Order)) :
    stackSize (pushGroup group pending) = group.length + stackSize pending := by
  unfold pushGroup
  split
  · rename_i h
    simp [List.isEmpty_iff.1 h]
  · simp

theorem stopCount_execute {b : Book} {o : Order} {drained : Bool} {b' : Book} {fs : List Fill}
    (h : b.execute o clock = some (drained, b', fs)) : b'.stopCount = b.stopCount := by
  simp [stopCount, execute_stopAsks h, execute_stopBids h]

theorem stopCount_release (b : Book) (s : Side) :
    (b.release s).1.stopCount + (b.release s).2.length = b.stopCount := by
  simpa [stopCount] using release_stops_count b s

/-! ## The recursion, as rules -/

/-- `RunsGroup clock b group b' fs`: running the released stops `group` in order from book
`b`, each stop that drains its level running the cascade of that drain to completion before
the next stop, ends in book `b'` having announced the fills `fs`. -/
inductive RunsGroup : Book → List Order → Book → List Fill → Prop
  | nil (b : Book) : RunsGroup b [] b []
  /-- A stop that cannot trade is dropped. -/
  | drop {b : Book} {stop : Order} {group : List Order} {b' : Book} {fs : List Fill} :
      b.execute stop clock = none → RunsGroup b group b' fs → RunsGroup b (stop :: group) b' fs
  /-- A stop that trades without draining its level. -/
  | keep {b : Book} {stop : Order} {group : List Order} {b₁ b' : Book} {fs₁ fs : List Fill} :
      b.execute stop clock = some (false, b₁, fs₁) → RunsGroup b₁ group b' fs →
      RunsGroup b (stop :: group) b' (fs₁ ++ fs)
  /-- A stop that drains its level runs the cascade of its own drain first. -/
  | drain {b : Book} {stop : Order} {group : List Order} {b₁ b₂ b' : Book}
      {fs₁ fs₂ fs : List Fill} :
      b.execute stop clock = some (true, b₁, fs₁) →
      RunsGroup (b₁.release stop.side.opposite).1 (b₁.release stop.side.opposite).2 b₂ fs₂ →
      RunsGroup b₂ group b' fs → RunsGroup b (stop :: group) b' (fs₁ ++ fs₂ ++ fs)

/-- The reference market order: execute it as a market order; when it drained its level,
release the stops of that drain and run them as `RunsGroup` says. -/
inductive MarketRef (b : Book) (id : UInt64) (side : Side) (size : UInt64) (user : String) :
    Option (Book × List Fill) → Prop
  | miss : b.execute (Order.market id side size user) clock = none → MarketRef b id side size user none
  | rest {b' : Book} {fs : List Fill} :
      b.execute (Order.market id side size user) clock = some (false, b', fs) →
      MarketRef b id side size user (some (b', fs))
  | drain {b₁ b' : Book} {fs₁ fs : List Fill} :
      b.execute (Order.market id side size user) clock = some (true, b₁, fs₁) →
      RunsGroup clock (b₁.release side.opposite).1 (b₁.release side.opposite).2 b' fs →
      MarketRef b id side size user (some (b', fs₁ ++ fs))

/-! ## The loop follows the rules -/

/-- **The stack simulates the recursion.**  Put a group with a derivation on top of any
stack: with more fuel than stops resting or pending, the loop reaches the state the
derivation ends in with that stack below, the derivation's fills appended, and still more
fuel than stops. -/
theorem runStops_of_runsGroup {b : Book} {group : List Order} {b' : Book} {fs : List Fill}
    (h : RunsGroup clock b group b' fs) :
    ∀ (fuel : Nat) (rest : List (List Order)) (acc : List Fill),
      b.stopCount + group.length + stackSize rest < fuel →
      ∃ fuel', b'.stopCount + stackSize rest < fuel' ∧
        runStops clock fuel b (pushGroup group rest) acc = runStops clock fuel' b' rest (acc ++ fs) := by
  induction h with
  | nil b =>
    intro fuel rest acc hfuel
    exact ⟨fuel, by simpa using hfuel, by simp [pushGroup]⟩
  | @drop b stop group b' fs hx _ ih =>
    intro fuel rest acc hfuel
    obtain ⟨f, rfl⟩ : ∃ f, fuel = f + 1 := ⟨fuel - 1, by simp at hfuel; omega⟩
    obtain ⟨f', hf', hrun⟩ := ih f rest acc (by simp at hfuel; omega)
    refine ⟨f', hf', ?_⟩
    simp only [pushGroup, List.isEmpty_cons, Bool.false_eq_true, ↓reduceIte]
    rw [runStops_turn]
    simp only [stopTurn, hx, List.append_nil]
    exact hrun
  | @keep b stop group b₁ b' fs₁ fs hx _ ih =>
    intro fuel rest acc hfuel
    obtain ⟨f, rfl⟩ : ∃ f, fuel = f + 1 := ⟨fuel - 1, by simp at hfuel; omega⟩
    have hcount := stopCount_execute clock hx
    obtain ⟨f', hf', hrun⟩ := ih f rest (acc ++ fs₁) (by simp at hfuel; omega)
    refine ⟨f', hf', ?_⟩
    simp only [pushGroup, List.isEmpty_cons, Bool.false_eq_true, ↓reduceIte]
    rw [runStops_turn]
    simp only [stopTurn, hx]
    rw [hrun, List.append_assoc]
  | @drain b stop group b₁ b₂ b' fs₁ fs₂ fs hx _ _ ih₁ ih₂ =>
    intro fuel rest acc hfuel
    obtain ⟨f, rfl⟩ : ∃ f, fuel = f + 1 := ⟨fuel - 1, by simp at hfuel; omega⟩
    -- the released group goes on top of what is left of this one
    have hcount := stopCount_execute clock hx
    have hrel := stopCount_release b₁ stop.side.opposite
    obtain ⟨f₁, hf₁, hrun₁⟩ := ih₁ f (pushGroup group rest) (acc ++ fs₁)
      (by simp at hfuel ⊢; omega)
    obtain ⟨f₂, hf₂, hrun₂⟩ := ih₂ f₁ rest (acc ++ fs₁ ++ fs₂)
      (by simp only [stackSize_pushGroup] at hf₁; omega)
    refine ⟨f₂, hf₂, ?_⟩
    simp only [pushGroup, List.isEmpty_cons, Bool.false_eq_true, ↓reduceIte]
    rw [runStops_turn]
    simp only [stopTurn, hx]
    rw [hrun₁, hrun₂]
    simp

/-- The fuel a cascade starts with is always enough: a derivation for the released group
gives the cascade's result. -/
theorem cascade_of_runsGroup {b : Book} {s : Side} {b' : Book} {fs : List Fill}
    (h : RunsGroup clock (b.release s).1 (b.release s).2 b' fs) : b.cascade s clock = (b', fs) := by
  obtain ⟨f, -, hrun⟩ := runStops_of_runsGroup clock h
    ((b.release s).1.stopAsks.count + (b.release s).1.stopBids.count + (b.release s).2.length + 1)
    [] [] (by simp [stopCount])
  simp only [cascade]
  rw [hrun]
  simp

/-! ## Every group has a derivation -/

/-- Running a group never adds a resting stop. -/
theorem stopCount_of_runsGroup {b : Book} {group : List Order} {b' : Book} {fs : List Fill}
    (h : RunsGroup clock b group b' fs) : b'.stopCount ≤ b.stopCount := by
  induction h with
  | nil => exact Nat.le_refl _
  | drop _ _ ih => exact ih
  | keep hx _ ih => rw [← stopCount_execute clock hx]; exact ih
  | @drain b stop group b₁ b₂ b' fs₁ fs₂ fs hx _ _ ih₁ ih₂ =>
    have hcount := stopCount_execute clock hx
    have hrel := stopCount_release b₁ stop.side.opposite
    omega

/-- **The recursion always ends.**  Every group of stops, from every book, has a derivation:
each stop run or dropped leaves the stops resting or pending one fewer. -/
theorem runsGroup_exists (b : Book) (group : List Order) :
    ∃ b' fs, RunsGroup clock b group b' fs := by
  induction hn : b.stopCount + group.length using Nat.strong_induction_on generalizing b group with
  | _ n ih =>
    cases group with
    | nil => exact ⟨b, [], .nil b⟩
    | cons stop group =>
      rcases hx : b.execute stop clock with _ | ⟨drained, b₁, fs₁⟩
      · obtain ⟨b', fs, h⟩ := ih (b.stopCount + group.length) (by simp at hn; omega) b group rfl
        exact ⟨b', fs, .drop hx h⟩
      · have hcount := stopCount_execute clock hx
        cases drained with
        | false =>
          obtain ⟨b', fs, h⟩ := ih (b₁.stopCount + group.length) (by simp at hn; omega) b₁ group rfl
          exact ⟨b', fs₁ ++ fs, .keep hx h⟩
        | true =>
          -- the drain's own group holds stops that rested before: fewer than the whole measure
          have hrel := stopCount_release b₁ stop.side.opposite
          obtain ⟨b₂, fs₂, h₂⟩ := ih ((b₁.release stop.side.opposite).1.stopCount +
            (b₁.release stop.side.opposite).2.length) (by simp at hn; omega)
            (b₁.release stop.side.opposite).1 (b₁.release stop.side.opposite).2 rfl
          have hle := stopCount_of_runsGroup clock h₂
          obtain ⟨b', fs, h⟩ := ih (b₂.stopCount + group.length) (by simp at hn; omega) b₂ group rfl
          exact ⟨b', fs₁ ++ fs₂ ++ fs, .drain hx h₂ h⟩

/-! ## The market order -/

/-- **The iterative cascade refines the depth-first recursion.**  For every book and every
market order, the reference relates the order to exactly one result, and it is the one the
book computes: the same books, history and resting count, the same fills in the same order,
and a miss exactly when the reference misses. -/
theorem market_iff_depthFirst (b : Book) (id : UInt64) (side : Side) (size : UInt64)
    (user : String) (r : Option (Book × List Fill)) :
    MarketRef clock b id side size user r ↔ b.market id side size user clock = r := by
  constructor
  · intro h
    cases h with
    | miss hx => simp [market, hx]
    | rest hx => simp [market, hx]
    | drain hx hg => simp [market, hx, cascade_of_runsGroup clock hg]
  · intro h
    subst h
    rcases hx : b.execute (Order.market id side size user) clock with _ | ⟨drained, b₁, fs₁⟩
    · simp only [market, hx]
      exact .miss hx
    · cases drained with
      | false =>
        simp only [market, hx]
        exact .rest hx
      | true =>
        obtain ⟨b', fs, hg⟩ := runsGroup_exists clock (b₁.release side.opposite).1
          (b₁.release side.opposite).2
        simp only [market, hx, cascade_of_runsGroup clock hg]
        exact .drain hx hg

end Book

end Bourse
