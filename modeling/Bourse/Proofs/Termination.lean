import Bourse.Proofs.Cascade
import Bourse.Proofs.DepthFirst

/-!
# The stop loop runs once per released stop

The stop cascade keeps pending groups of released stops on an explicit stack, so that
chains of drains of any length run without recursion.  Each turn takes the next stop of the
top group, pops the group once that stop was its last, and runs the stop; a drain pushes the
group it releases, of any size, and a group is pushed only when it is non-empty.

The loop's measure counts the stops resting in both stop ladders and the stops waiting on
the stack (`loopMeasure`).  An execution touches no stop ladder, and a release moves stops
from a stop ladder onto the stack, so one turn lowers the measure by exactly one.

* `LoopStep.groups_nonEmpty`: no state of the loop holds an empty group, so the loop never
  takes its branch for an empty group, and every step is a turn;
* `stopTurn_measure`, `LoopStep.measure`: every step lowers the measure by exactly one;
* `loopRuns_exists`: from any state without empty groups the loop reaches the empty stack in
  exactly as many steps as the measure falls;
* `runStops_of_loopRuns`: with at least that much fuel, `Book.runStops` ends where the steps
  end, so the fuel `Book.cascade` gives never cuts the loop short;
* `cascade_runs_once_per_released_stop`: all of it for every book and every drained side.
-/

namespace Bourse

namespace Book

variable (clock : UInt64)

/-- `LoopRuns clock n st st'`: the stop loop goes from `st` to `st'` in exactly `n` steps. -/
inductive LoopRuns : Nat → Book × List (List Order) → Book × List (List Order) → Prop
  | done (st : Book × List (List Order)) : LoopRuns 0 st st
  | step {n : Nat} {st st' st'' : Book × List (List Order)} :
      LoopStep clock st st' → LoopRuns n st' st'' → LoopRuns (n + 1) st st''

/-- The loop's measure: the stops resting in both stop ladders and the stops waiting in the
pending groups. -/
def loopMeasure (st : Book × List (List Order)) : Nat := st.1.stopCount + stackSize st.2

/-- The state the cascade after a drain of `s` starts its loop in: the book after the first
release, with the group released pending. -/
def cascadeStart (b : Book) (s : Side) : Book × List (List Order) :=
  ((b.release s).1, pushGroup (b.release s).2 [])

/-- Every pending group holds a stop. -/
def GroupsNonEmpty (pending : List (List Order)) : Prop := ∀ g ∈ pending, g ≠ []

theorem groupsNonEmpty_pushGroup {pending : List (List Order)} (h : GroupsNonEmpty pending)
    (group : List Order) : GroupsNonEmpty (pushGroup group pending) := by
  intro g hg
  unfold pushGroup at hg
  split at hg
  · exact h g hg
  · rename_i hne
    rcases List.mem_cons.1 hg with rfl | hg
    · exact fun hnil => hne (List.isEmpty_iff.2 hnil)
    · exact h g hg

/-- The cascade starts with no empty group, and its measure is the number of stops resting
before the first release. -/
theorem cascadeStart_groupsNonEmpty (b : Book) (s : Side) : GroupsNonEmpty (b.cascadeStart s).2 :=
  groupsNonEmpty_pushGroup (fun _ h => by cases h) _

theorem loopMeasure_cascadeStart (b : Book) (s : Side) :
    loopMeasure (b.cascadeStart s) = b.stopCount := by
  have := stopCount_release b s
  simp only [loopMeasure, cascadeStart, stackSize_pushGroup, stackSize_nil]
  omega

/-- The cascade runs the loop from its start with one more fuel than the stops resting
before its first release. -/
theorem cascade_eq (b : Book) (s : Side) :
    b.cascade s clock = runStops clock (b.stopCount + 1) (b.cascadeStart s).1 (b.cascadeStart s).2 [] := by
  have h := stopCount_release b s
  simp only [stopCount] at h
  simp only [cascade, cascadeStart, stopCount]
  rw [h]

/-! ## One step -/

/-- **A turn keeps the stops counted.**  The stops resting after a turn and those on the
stack it leaves are as many as before it: the execution touches no stop ladder, and a release
moves stops from a ladder to the stack. -/
theorem stopTurn_measure (b : Book) (stop : Order) (pending : List (List Order)) :
    loopMeasure ((stopTurn clock b stop pending).1, (stopTurn clock b stop pending).2.1) =
      loopMeasure (b, pending) := by
  rcases stopTurn_cases clock b stop pending with ⟨-, heq⟩ | ⟨b', fs, hx, heq⟩ | ⟨b', fs, hx, heq⟩
  · rw [heq]
  · rw [heq]
    simp only [loopMeasure, stopCount_execute clock hx]
  · rw [heq]
    have hrel := stopCount_release b' stop.side.opposite
    have hexec := stopCount_execute clock hx
    simp only [loopMeasure, stackSize_pushGroup]
    omega

/-- A step keeps every group non-empty: a group is popped with its last stop, and a drain
pushes only a non-empty group. -/
theorem LoopStep.groups_nonEmpty {st st' : Book × List (List Order)} (hs : LoopStep clock st st')
    (h : GroupsNonEmpty st.2) : GroupsNonEmpty st'.2 := by
  cases hs with
  | pop b rest => exact fun g hg => h g (List.mem_cons_of_mem _ hg)
  | turn b stop group rest =>
    have hrest : GroupsNonEmpty (pushGroup group rest) :=
      groupsNonEmpty_pushGroup (fun g hg => h g (List.mem_cons_of_mem _ hg)) group
    rcases stopTurn_cases clock b stop (pushGroup group rest) with
      ⟨-, heq⟩ | ⟨b', fs, hx, heq⟩ | ⟨b', fs, hx, heq⟩ <;> rw [heq]
    · exact hrest
    · exact hrest
    · exact groupsNonEmpty_pushGroup hrest _

/-- **Every step takes one stop and lowers the measure by exactly one.**  With no empty group
pending, a step is never the pop of an empty group: it takes the next stop of the top group,
and the turn leaves one stop fewer resting or pending. -/
theorem LoopStep.measure {st st' : Book × List (List Order)} (hs : LoopStep clock st st')
    (h : GroupsNonEmpty st.2) :
    (∃ stop group rest, st.2 = (stop :: group) :: rest) ∧ loopMeasure st' + 1 = loopMeasure st := by
  cases hs with
  | pop b rest => exact absurd rfl (h [] List.mem_cons_self)
  | turn b stop group rest =>
    refine ⟨⟨stop, group, rest, rfl⟩, ?_⟩
    rw [stopTurn_measure]
    simp only [loopMeasure, stackSize_pushGroup, stackSize_cons, List.length_cons]
    omega

/-! ## Whole runs -/

/-- **The loop ends, after as many steps as the measure falls.**  From any state without an
empty group, the loop reaches the empty stack; the steps it takes and the stops still resting
at the end add up to the measure it started with. -/
theorem loopRuns_exists (st : Book × List (List Order)) (h : GroupsNonEmpty st.2) :
    ∃ n b', LoopRuns clock n st (b', []) ∧ n + b'.stopCount = loopMeasure st := by
  -- induction on the measure, which each step lowers by one
  induction hm : loopMeasure st generalizing st with
  | zero =>
    obtain ⟨b, pending⟩ := st
    cases pending with
    | nil => exact ⟨0, b, .done _, by simpa [loopMeasure] using hm⟩
    | cons g rest =>
      obtain ⟨stop, group, rfl⟩ := List.exists_cons_of_ne_nil (h g List.mem_cons_self)
      simp [loopMeasure] at hm
  | succ m ih =>
    obtain ⟨b, pending⟩ := st
    cases pending with
    | nil => exact ⟨0, b, .done _, by simpa [loopMeasure] using hm⟩
    | cons g rest =>
      obtain ⟨stop, group, rfl⟩ := List.exists_cons_of_ne_nil (h g List.mem_cons_self)
      have hs := @LoopStep.turn clock b stop group rest
      obtain ⟨-, hdec⟩ := hs.measure clock h
      obtain ⟨n, b', hrun, hcount⟩ := ih _ (hs.groups_nonEmpty clock h) (by omega)
      exact ⟨n + 1, b', .step hs hrun, by omega⟩

/-- **Enough fuel runs the loop to its end.**  When the steps take the loop to the empty stack
in `n` steps, `runStops` with fuel `n` or more ends in the same book. -/
theorem runStops_of_loopRuns {n : Nat} {st st' : Book × List (List Order)}
    (h : LoopRuns clock n st st') (hend : st'.2 = []) :
    ∀ fuel fills, n ≤ fuel → (runStops clock fuel st.1 st.2 fills).1 = st'.1 := by
  induction h with
  | done st =>
    intro fuel fills _
    obtain ⟨b, pending⟩ := st
    subst hend
    simp
  | step hs _ ih =>
    intro fuel fills hfuel
    obtain ⟨f, rfl⟩ : ∃ f, fuel = f + 1 := ⟨fuel - 1, by omega⟩
    cases hs with
    | pop b rest =>
      rw [runStops_empty_group]
      exact ih hend f fills (by omega)
    | turn b stop group rest =>
      rw [runStops_turn]
      exact ih hend f _ (by omega)

/-- **The stop cascade terminates with an exact bound.**  For every book and every drained
side, along every run of the loop the cascade starts: no pending group is ever empty, so each
step takes the next stop of the top group (the loop's branch for an empty group is never
taken); and each step lowers the stops resting or pending by exactly one.  The measure starts
at the number of stops resting when the call begins, so the loop reaches the empty stack after
`n` steps, where `n` plus the stops still resting at the end is that number: the loop runs
once per stop released in the call (a stop leaves the stop ladders only by a release), at
most once per stop resting when it began.  The cascade's fuel is enough, so the book it
returns is the one at the end of those steps. -/
theorem cascade_runs_once_per_released_stop (b : Book) (s : Side) :
    (∀ st, Relation.ReflTransGen (LoopStep clock) (b.cascadeStart s) st →
      GroupsNonEmpty st.2 ∧ ∀ st', LoopStep clock st st' →
        (∃ stop group rest, st.2 = (stop :: group) :: rest) ∧
          loopMeasure st' + 1 = loopMeasure st) ∧
    loopMeasure (b.cascadeStart s) = b.stopCount ∧
    ∃ n b', LoopRuns clock n (b.cascadeStart s) (b', []) ∧ (b.cascade s clock).1 = b' ∧
      n + b'.stopCount = b.stopCount ∧ n ≤ b.stopCount := by
  -- every state reached keeps every group non-empty
  have hreach : ∀ st, Relation.ReflTransGen (LoopStep clock) (b.cascadeStart s) st →
      GroupsNonEmpty st.2 := by
    intro st h
    induction h with
    | refl => exact cascadeStart_groupsNonEmpty b s
    | tail _ hs ih => exact hs.groups_nonEmpty clock ih
  refine ⟨fun st h => ⟨hreach st h, fun st' hs => hs.measure clock (hreach st h)⟩,
    loopMeasure_cascadeStart b s, ?_⟩
  obtain ⟨n, b', hrun, hcount⟩ := loopRuns_exists clock _ (cascadeStart_groupsNonEmpty b s)
  rw [loopMeasure_cascadeStart] at hcount
  refine ⟨n, b', hrun, ?_, hcount, by omega⟩
  rw [cascade_eq]
  exact runStops_of_loopRuns clock hrun rfl _ [] (by omega)

/-- Asks of 1 at 102 and 103 with buy stops of 1 at 102 and 103. -/
def stopChainBook : Book :=
  (((empty.insertLimit (Order.limit 2 .ask 1 102 "m")).insertLimit
    (Order.limit 3 .ask 1 103 "m")).insertStop (Order.stop 5 .bid 1 102 "s")).insertStop
      (Order.stop 6 .bid 1 103 "s")

/-- The cascade after an ask drain releases the stop at 102, which drains 102 and releases the
stop at 103, which drains 103. The loop starts with no empty group and runs exactly twice. -/
theorem cascade_runs_twice_on_a_chain :
    GroupsNonEmpty (stopChainBook.cascadeStart .ask).2 ∧
      LoopRuns 10 2 (stopChainBook.cascadeStart .ask) ((stopChainBook.cascade .ask 10).1, []) := by
  have h := cascade_runs_once_per_released_stop 10 stopChainBook .ask
  obtain ⟨n, b', hrun, hcasc, hcount, -⟩ := h.2.2
  subst hcasc
  -- both stops rest before the call and none after it
  have hbefore : stopChainBook.stopCount = 2 := by decide +kernel
  have hafter : (stopChainBook.cascade .ask 10).1.stopCount = 0 := by decide +kernel
  obtain rfl : n = 2 := by omega
  exact ⟨(h.1 _ .refl).1, hrun⟩

end Book

end Bourse
