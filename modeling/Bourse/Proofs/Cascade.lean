import Mathlib.Logic.Relation
import Bourse.Proofs.Representation

/-!
# The states a stop cascade passes through

`Book.runStops` runs the stop loop for a given fuel and returns where it stopped.  Claims
about every execution of a cascade need the states in between as well, so this file states
the loop as a transition system: a state is the book with the stack of pending groups, and
a step (`Book.LoopStep`) drops an empty group or gives the next stop its turn.

* `runStops_reaches`: the loop only ever stops in a state its steps reach;
* `Book.MarketLoop`: the loop states a market order passes through, and `Book.MarketExec`
  the executions it performs, its own and those of the stops its cascade runs;
* `MarketLoop.book_invariant`, `MarketExec.book_invariant`: a property of books kept by
  every execution and every release holds at every state and every execution of a market
  order; `market_wf_states` instantiates it with the representation invariant.
-/

namespace Bourse

namespace Book

variable (clock : UInt64)

/-- One step of the stop loop: an empty group is dropped, or the next stop of the top group
takes its turn (`stopTurn`). -/
inductive LoopStep : Book × List (List Order) → Book × List (List Order) → Prop
  | pop (b : Book) (rest : List (List Order)) : LoopStep (b, [] :: rest) (b, rest)
  | turn (b : Book) (stop : Order) (group : List Order) (rest : List (List Order)) :
      LoopStep (b, (stop :: group) :: rest)
        ((stopTurn clock b stop (pushGroup group rest)).1,
          (stopTurn clock b stop (pushGroup group rest)).2.1)

/-- **The loop stops where its steps lead**: whatever the fuel, the book `runStops` returns
is that of a state reached from the state it started in. -/
theorem runStops_reaches (fuel : Nat) (b : Book) (pending : List (List Order))
    (fills : List Fill) :
    ∃ pending', Relation.ReflTransGen (LoopStep clock) (b, pending)
      ((runStops clock fuel b pending fills).1, pending') :=
  runStops_invariant clock (fun b' pending' _ => Relation.ReflTransGen (LoopStep clock) (b, pending)
      (b', pending'))
    (fun b' rest _ h => h.tail (LoopStep.pop b' rest))
    (fun b' stop group rest _ h => h.tail (LoopStep.turn b' stop group rest))
    fuel b pending fills Relation.ReflTransGen.refl

/-- The loop states a market order passes through: when its execution drains its level,
the loop starts from the group that drain releases, and goes on step by step. -/
def MarketLoop (b : Book) (id : UInt64) (side : Side) (size : UInt64) (user : String)
    (st : Book × List (List Order)) : Prop :=
  ∃ b₁ fs, b.execute (Order.market id side size user) clock = some (true, b₁, fs) ∧
    Relation.ReflTransGen (LoopStep clock)
      ((b₁.release side.opposite).1, pushGroup (b₁.release side.opposite).2 []) st

/-- The executions a market order performs: its own, on the book it meets, and that of each
stop its cascade runs, on the book of the loop state where that stop is next. -/
def MarketExec (b : Book) (id : UInt64) (side : Side) (size : UInt64) (user : String)
    (c : Book) (o : Order) : Prop :=
  (c = b ∧ o = Order.market id side size user) ∨
    ∃ group rest, MarketLoop clock b id side size user (c, (o :: group) :: rest)

/-- A market order that drained its level ends in a state of its loop. -/
theorem market_marketLoop {b b' : Book} {id : UInt64} {side : Side} {size : UInt64}
    {user : String} {fs : List Fill} (hm : b.market id side size user clock = some (b', fs)) :
    (∃ b₁ fs₁, b.execute (Order.market id side size user) clock = some (false, b₁, fs₁) ∧
      b' = b₁) ∨ ∃ pending, MarketLoop clock b id side size user (b', pending) := by
  unfold market at hm
  split at hm
  · cases hm
  · rename_i b₁ fs₁ hx
    simp only [Option.some.injEq, Prod.mk.injEq] at hm
    exact Or.inl ⟨b₁, fs₁, hx, hm.1.symm⟩
  · rename_i b₁ fs₁ hx
    simp only [Option.some.injEq, Prod.mk.injEq] at hm
    obtain ⟨pending, hreach⟩ := runStops_reaches clock _ (b₁.release side.opposite).1
      (pushGroup (b₁.release side.opposite).2 []) []
    exact Or.inr ⟨pending, b₁, fs₁, hx, hm.1 ▸ hreach⟩

/-- **A property of loop states kept by every step holds at every state of a market order's
loop**, once it holds where the loop starts: after the order's own draining execution and the
release that follows it. -/
theorem MarketLoop.invariant {b : Book} {id : UInt64} {side : Side} {size : UInt64}
    {user : String} (Q : Book × List (List Order) → Prop)
    (hstart : ∀ b₁ fs, b.execute (Order.market id side size user) clock = some (true, b₁, fs) →
      Q ((b₁.release side.opposite).1, pushGroup (b₁.release side.opposite).2 []))
    (hstep : ∀ st st', LoopStep clock st st' → Q st → Q st')
    {st : Book × List (List Order)} (h : MarketLoop clock b id side size user st) : Q st := by
  obtain ⟨b₁, fs, hx, hreach⟩ := h
  induction hreach with
  | refl => exact hstart b₁ fs hx
  | tail _ hs ih => exact hstep _ _ hs ih

section BookInvariant

variable (P : Book → Prop)
  (hexec : ∀ b o b' drained fs, P b → b.execute o clock = some (drained, b', fs) → P b')
  (hrel : ∀ b s, P b → P (b.release s).1)
include hexec hrel

/-- A property of books kept by every execution and every release is kept by a loop step. -/
theorem LoopStep.book_invariant {st st' : Book × List (List Order)} (h : LoopStep clock st st')
    (hp : P st.1) : P st'.1 := by
  cases h with
  | pop b rest => exact hp
  | turn b stop group rest => exact stopTurn_invariant clock P hexec hrel b stop _ hp

/-- ... and so holds at every state of a market order's loop. -/
theorem MarketLoop.book_invariant {b : Book} {id : UInt64} {side : Side} {size : UInt64}
    {user : String} {st : Book × List (List Order)} (hb : P b)
    (h : MarketLoop clock b id side size user st) : P st.1 :=
  MarketLoop.invariant clock (fun st => P st.1)
    (fun b₁ _ hx => hrel b₁ side.opposite (hexec _ _ _ _ _ hb hx))
    (fun _ _ hs hp => LoopStep.book_invariant clock P hexec hrel hs hp) h

/-- ... and on the book of every execution the market order performs. -/
theorem MarketExec.book_invariant {b : Book} {id : UInt64} {side : Side} {size : UInt64}
    {user : String} {c : Book} {o : Order} (hb : P b)
    (h : MarketExec clock b id side size user c o) : P c := by
  rcases h with ⟨rfl, -⟩ | ⟨group, rest, hloop⟩
  · exact hb
  · exact MarketLoop.book_invariant clock P hexec hrel hb hloop

end BookInvariant

/-- On a well-formed book, every execution a market order performs meets a well-formed
book. -/
theorem market_wf_states {b : Book} (hwf : b.WF) {id : UInt64} {side : Side} {size : UInt64}
    {user : String} {c : Book} {o : Order} (h : MarketExec clock b id side size user c o) :
    c.WF :=
  MarketExec.book_invariant clock WF (fun _ _ _ _ _ hb hx => execute_wf hb hx)
    (fun _ s hb => release_wf hb s) hwf h

end Book

end Bourse
