import Mathlib
import Bourse.Proofs.Cascade
import Bourse.Proofs.Freshness
import Bourse.Book.Words

/-!
# Word arithmetic of the book

The book keeps its counts and totals in unsigned 64-bit words, and a build with overflow
checks stops at the first addition that leaves the word or subtraction that goes below zero.
The book's own numbers are exact (`Nat`), so this file names the word steps each operation
makes, in the order it makes them (`WordOp`, with the steps of a restore in
`Bourse.Book.Words`), and proves every one of them exact (`WordOp.Exact`) wherever the book
can be:

* a fill (`Book.fillSteps`): per maker taken whole, `remaining - size` and `total - size`;
  for the maker taken in part, `size - remaining` and `total - remaining`; then the makers
  taken whole off the resting count.  The loop also has an exit for a queue that runs out
  while something remains (`Level.runsDry`), which is never taken;
* a release (`Book.releaseSteps`) and a cancel (`Book.cancelSteps`): orders off the resting
  count, and a cancelled order's size off its level's total;
* a resting insert (`Book.restSteps`): the size onto its level's total, one onto the count;
* a restore (`Snapshot.restoreSteps`, `Snapshot.floorSteps`): the rebuild of each level, the
  count of each ladder and their sum, and one past the largest id.

The subtractions are exact because of the representation invariant: a level's total is the
sum of its sizes (`fillSteps_exact`, `WF.cancelSteps_exact`) and the resting count is the
number of resting orders (`WF.fillSteps_exact`, `WF.releaseSteps_exact`).  The additions are
exact within the limits a run keeps (`Book.Filed`): fewer than `2 ^ 64` orders filed and no
level total above the largest word.  `word_steps_exact` puts it together, for every execution
of a market order's cascade as well.  A restore's additions are exact exactly when each queue
it files sums to a word, the orders it rebuilds number fewer than `2 ^ 64` and no id is the
largest word (`rebuildSteps_exact_iff`, `countSteps_restore_exact_iff`,
`floorSteps_exact_iff`): outside those limits a restore stops.
-/

namespace Bourse

namespace WordOp

@[simp] theorem exact_add (a b : Nat) : (add a b).Exact ↔ a + b < UInt64.size := Iff.rfl

@[simp] theorem exact_sub (a b : Nat) : (sub a b).Exact ↔ b ≤ a := Iff.rfl

/-- **A sum stays in the word at every step exactly when its total does**, from a start that
is a word. -/
theorem sumSteps_exact_iff {acc : Nat} (hacc : acc < UInt64.size) (xs : List Nat) :
    (∀ w ∈ sumSteps acc xs, w.Exact) ↔ acc + xs.sum < UInt64.size := by
  induction xs generalizing acc with
  | nil => simpa [sumSteps] using hacc
  | cons x xs ih =>
    simp only [sumSteps, List.forall_mem_cons, exact_add, List.sum_cons]
    constructor
    · rintro ⟨hx, hrest⟩
      have := (ih hx).1 hrest
      omega
    · intro h
      have hx : acc + x < UInt64.size := by omega
      exact ⟨hx, (ih hx).2 (by omega)⟩

end WordOp

namespace Level

/-! ## The fill loop -/

/-- The word steps of the fill loop taking `remaining` from a queue whose level caches
`total`: a maker taken whole costs `remaining - size` and `total - size`; the maker taken in
part costs `size - remaining` and `total - remaining`, and ends the loop. -/
def fillSteps : List Order → UInt64 → Nat → List WordOp
  | [], _, _ => []
  | o :: rest, remaining, total =>
    if remaining = 0 then []
    else if o.size ≤ remaining then
      .sub remaining.toNat o.size.toNat :: .sub total o.size.toNat ::
        fillSteps rest (remaining - o.size) (total - o.size.toNat)
    else [.sub o.size.toNat remaining.toNat, .sub total remaining.toNat]

/-- Whether the fill loop meets an empty queue while something remains to take: the one way
out of the loop other than taking all that was asked. -/
def runsDry : List Order → UInt64 → Bool
  | [], remaining => remaining != 0
  | o :: rest, remaining =>
    if remaining = 0 then false
    else if o.size ≤ remaining then runsDry rest (remaining - o.size)
    else false

/-- **The fill loop is exact** on a queue whose cached total is the sum of its sizes, when
that total covers what is asked: every step stays at or above zero. -/
theorem fillSteps_exact (q : List Order) :
    ∀ (remaining : UInt64) (total : Nat), total = sizeSum q → remaining.toNat ≤ total →
      ∀ w ∈ fillSteps q remaining total, w.Exact := by
  induction q with
  | nil => intro r total _ _ w hw; simp [fillSteps] at hw
  | cons o rest ih =>
    intro r total htot hr w hw
    rw [sizeSum_cons] at htot
    simp only [fillSteps] at hw
    split_ifs at hw with h0 hle
    · simp at hw
    · -- a maker taken whole: both subtractions are covered, and the loop goes on
      have hle' : o.size.toNat ≤ r.toNat := UInt64.le_iff_toNat_le.1 hle
      have hsub : (r - o.size).toNat = r.toNat - o.size.toNat := UInt64.toNat_sub_of_le _ _ hle
      simp only [List.mem_cons] at hw
      rcases hw with rfl | rfl | hw
      · simpa using hle'
      · simp only [WordOp.exact_sub]
        omega
      · exact ih _ _ (by omega) (by omega) w hw
    · -- the maker taken in part is larger than what remains
      have hlt : r.toNat < o.size.toNat := UInt64.lt_iff_toNat_lt.1 (UInt64.not_le.1 hle)
      simp only [List.mem_cons, List.not_mem_nil, or_false] at hw
      rcases hw with rfl | rfl
      · simp only [WordOp.exact_sub]
        omega
      · simpa using hr

/-- **The loop never runs dry** on a queue whose sizes cover what is asked. -/
theorem runsDry_eq_false (q : List Order) :
    ∀ remaining : UInt64, remaining.toNat ≤ sizeSum q → runsDry q remaining = false := by
  induction q with
  | nil =>
    intro r hr
    have : r = 0 := UInt64.toNat_inj.1 (by simpa using hr)
    simp [runsDry, this]
  | cons o rest ih =>
    intro r hr
    rw [sizeSum_cons] at hr
    simp only [runsDry]
    split_ifs with h0 hle
    · rfl
    · have hle' : o.size.toNat ≤ r.toNat := UInt64.le_iff_toNat_le.1 hle
      refine ih _ ?_
      rw [UInt64.toNat_sub_of_le _ _ hle]
      omega
    · rfl

end Level

namespace Ladder

/-! ## Counts and totals of a ladder -/

/-- The word steps of removing the first order of an id from a ladder's levels: the order's
size off the total of the level it rests in. -/
def removeSteps (id : UInt64) : List (UInt64 × Level) → List WordOp
  | [] => []
  | (_, l) :: rest =>
    match l.remove? id with
    | some (o, _) => [.sub l.total o.size.toNat]
    | none => removeSteps id rest

theorem count_eq_sum (ld : Ladder) : ld.count = (ld.levels.map (·.2.length)).sum := by
  simp [count_eq, orders, List.length_flatMap, Level.length]

/-- A level holds no more orders than its ladder. -/
theorem length_le_count {ld : Ladder} {e : UInt64 × Level} (he : e ∈ ld.levels) :
    e.2.length ≤ ld.count := by
  rw [count_eq_sum]
  exact List.le_sum_of_mem (List.mem_map_of_mem he)

/-- **A removal is exact** on well-formed levels: the order removed is one of its level's,
whose total is the sum of their sizes. -/
theorem removeSteps_exact (id : UInt64) {ls : List (UInt64 × Level)}
    (hwf : ∀ e ∈ ls, e.2.WF e.1) : ∀ w ∈ removeSteps id ls, w.Exact := by
  induction ls with
  | nil => simp [removeSteps]
  | cons e ls ih =>
    obtain ⟨p, l⟩ := e
    intro w hw
    simp only [removeSteps] at hw
    split at hw
    · rename_i o l' hr
      obtain ⟨pre, post, hq, -, -, -⟩ := Level.remove?_eq_some hr
      have htot : l.total = Level.sizeSum l.queue := (hwf (p, l) List.mem_cons_self).total_eq
      rw [hq, Level.sizeSum_append, Level.sizeSum_cons] at htot
      rw [List.mem_singleton.1 hw, WordOp.exact_sub]
      omega
    · exact ih (fun e he => hwf e (List.mem_cons_of_mem _ he)) w hw

end Ladder

namespace Book

/-! ## Fills, releases and cancels -/

/-- The word steps of a fill of the best level opposite `taker`: the loop's steps on that
level, then the makers taken whole off the resting count.  A fill that finds no level, or a
level whose total does not cover `size`, makes none. -/
def fillSteps (b : Book) (taker : Side) (size : UInt64) : List WordOp :=
  match b.bestOf taker.opposite with
  | none => []
  | some price =>
    match (b.limitSide taker.opposite).level? price with
    | none => []
    | some l =>
      if l.total < size.toNat then []
      else Level.fillSteps l.queue size l.total ++
        [.sub b.resting (Level.consume l.queue size).1.length]

/-- Whether a fill of the best level opposite `taker` runs its loop dry. -/
def fillRunsDry (b : Book) (taker : Side) (size : UInt64) : Bool :=
  match b.bestOf taker.opposite with
  | none => false
  | some price =>
    match (b.limitSide taker.opposite).level? price with
    | none => false
    | some l => if l.total < size.toNat then false else Level.runsDry l.queue size

/-- The word step of a release after a level of `drained` emptied: the released stops off
the resting count.  Nothing is released, and nothing counted, when that ladder is now
empty. -/
def releaseSteps (b : Book) (drained : Side) : List WordOp :=
  match b.bestOf drained with
  | none => []
  | some _ => [.sub b.resting (b.release drained).2.length]

/-- The word steps of a cancel: the removal from the first ladder, in search order, that
holds the id, then one order off the resting count. -/
def cancelSteps (b : Book) (id : UInt64) : List WordOp :=
  match b.ladders.find? (fun ld => (ld.remove? id).isSome) with
  | none => []
  | some ld => Ladder.removeSteps id ld.levels ++ [.sub b.resting 1]

theorem limitSide_mem_ladders (b : Book) (s : Side) : b.limitSide s ∈ b.ladders := by
  cases s <;> simp [limitSide, ladders]

theorem stopSide_mem_ladders (b : Book) (s : Side) : b.stopSide s ∈ b.ladders := by
  cases s <;> simp [stopSide, ladders]

theorem WF.mem_ladders {b : Book} (h : b.WF) {ld : Ladder} (hld : ld ∈ b.ladders) : ld.WF := by
  simp only [ladders, List.mem_cons, List.not_mem_nil, or_false] at hld
  rcases hld with rfl | rfl | rfl | rfl
  · exact h.asks
  · exact h.bids
  · exact h.stopAsks
  · exact h.stopBids

/-- Under the invariant, no ladder holds more orders than the resting count. -/
theorem WF.count_le_resting {b : Book} (h : b.WF) {ld : Ladder} (hld : ld ∈ b.ladders) :
    ld.count ≤ b.resting := by
  have hr := h.resting_eq
  rw [length_restingOrders] at hr
  simp only [ladders, List.mem_cons, List.not_mem_nil, or_false] at hld
  rcases hld with rfl | rfl | rfl | rfl <;> omega

/-- **A fill is exact** on a well-formed book: the loop's steps, because the level's total is
the sum of its sizes and covers the size, and the makers off the resting count, because
they are among the resting orders. -/
theorem WF.fillSteps_exact {b : Book} (h : b.WF) (taker : Side) (size : UInt64) :
    ∀ w ∈ b.fillSteps taker size, w.Exact := by
  intro w hw
  unfold fillSteps at hw
  split at hw
  · simp at hw
  · split at hw
    · simp at hw
    · rename_i l hl
      split at hw
      · simp at hw
      · rename_i hcover
        have hld := h.limitSide taker.opposite
        have hmem := hld.level?_eq_some_iff.1 hl
        have hlwf := hld.level_wf _ hmem
        rcases List.mem_append.1 hw with hw | hw
        · exact Level.fillSteps_exact l.queue size l.total hlwf.total_eq (by omega) w hw
        · -- the makers taken whole are among the orders of the level, of its ladder
          rw [List.mem_singleton.1 hw, WordOp.exact_sub]
          have h₁ := Level.consume_length l.queue size
          have h₂ := Ladder.length_le_count hmem
          have h₃ := h.count_le_resting (b.limitSide_mem_ladders taker.opposite)
          simp only [Level.length] at h₂
          omega

/-- **A fill never runs dry** on a well-formed book. -/
theorem WF.fillRunsDry_eq_false {b : Book} (h : b.WF) (taker : Side) (size : UInt64) :
    b.fillRunsDry taker size = false := by
  unfold fillRunsDry
  split
  · rfl
  · rename_i price _
    split
    · rfl
    · rename_i l hl
      split
      · rfl
      · rename_i hcover
        have hld := h.limitSide taker.opposite
        have hlwf : l.WF price := hld.level_wf _ (hld.level?_eq_some_iff.1 hl)
        exact Level.runsDry_eq_false l.queue size (by rw [← hlwf.total_eq]; omega)

/-- **A release is exact** on a well-formed book: the released stops come out of the stop
ladders, which the resting count covers. -/
theorem WF.releaseSteps_exact {b : Book} (h : b.WF) (s : Side) :
    ∀ w ∈ b.releaseSteps s, w.Exact := by
  intro w hw
  unfold releaseSteps at hw
  split at hw
  · simp at hw
  · rw [List.mem_singleton.1 hw, WordOp.exact_sub]
    have h₁ := release_stops_count b s
    have h₂ := h.resting_eq
    rw [length_restingOrders] at h₂
    omega

/-- **A cancel is exact** on a well-formed book: the order's size off its level's total, and
one order off the resting count, which holds it. -/
theorem WF.cancelSteps_exact {b : Book} (h : b.WF) (id : UInt64) :
    ∀ w ∈ b.cancelSteps id, w.Exact := by
  intro w hw
  unfold cancelSteps at hw
  split at hw
  · simp at hw
  · rename_i ld hfind
    have hmem := List.mem_of_find?_eq_some hfind
    rcases List.mem_append.1 hw with hw | hw
    · exact Ladder.removeSteps_exact id (h.mem_ladders hmem).level_wf w hw
    · rw [List.mem_singleton.1 hw, WordOp.exact_sub]
      obtain ⟨⟨o, ld'⟩, hr⟩ :=
        Option.isSome_iff_exists.1 (by simpa using List.find?_some hfind)
      have h₁ := Ladder.count_remove? hr
      have h₂ := h.count_le_resting hmem
      omega

end Book

/-! ## Resting inserts -/

namespace Ladder

theorem totalAt_nil (p : UInt64) : (⟨[]⟩ : Ladder).totalAt p = 0 := rfl

theorem totalAt_cons (q : UInt64) (l : Level) (rest : List (UInt64 × Level)) (p : UInt64) :
    (⟨(q, l) :: rest⟩ : Ladder).totalAt p =
      if q = p then l.total else (⟨rest⟩ : Ladder).totalAt p := by
  by_cases h : q = p <;> simp [totalAt, level?, h]

/-- Nothing rests at a price below every level. -/
theorem totalAt_of_lt {ls : List (UInt64 × Level)} {p : UInt64} (h : ∀ e ∈ ls, p < e.1) :
    (⟨ls⟩ : Ladder).totalAt p = 0 := by
  induction ls with
  | nil => rfl
  | cons e ls ih =>
    obtain ⟨q, l⟩ := e
    have hne : q ≠ p := fun hq => UInt64.lt_irrefl p (hq ▸ h (q, l) List.mem_cons_self)
    rw [totalAt_cons, if_neg hne, ih fun e he => h e (List.mem_cons_of_mem _ he)]

/-- **Filing adds to one total.**  In a ladder of ascending prices, filing an order at a
price adds its size to the total there and changes no other. -/
theorem totalAt_insertAt {ls : List (UInt64 × Level)} (h : ls.Pairwise (fun a b => a.1 < b.1))
    (price : UInt64) (o : Order) (p : UInt64) :
    (⟨insertAt price o ls⟩ : Ladder).totalAt p =
      (⟨ls⟩ : Ladder).totalAt p + if price = p then o.size.toNat else 0 := by
  induction ls with
  | nil =>
    by_cases hp : price = p <;> simp [insertAt, totalAt_cons, totalAt_nil, Level.single, hp]
  | cons e rest ih =>
    obtain ⟨q, l⟩ := e
    by_cases hlt : price < q
    · -- a new level below all others: at its price nothing rested before
      rw [show insertAt price o ((q, l) :: rest) = (price, Level.single o) :: (q, l) :: rest by
        simp [insertAt, hlt], totalAt_cons]
      by_cases hp : price = p
      · subst hp
        have hbelow : ∀ e ∈ (q, l) :: rest, price < e.1 := by
          intro e he
          rcases List.mem_cons.1 he with rfl | he
          · exact hlt
          · exact UInt64.lt_trans hlt (List.rel_of_pairwise_cons h he)
        simp [totalAt_of_lt hbelow, Level.single]
      · simp [hp]
    · by_cases heq : price = q
      · -- the level of that price grows
        subst heq
        rw [show insertAt price o ((price, l) :: rest) = (price, l.push o) :: rest by
          simp [insertAt], totalAt_cons, totalAt_cons]
        by_cases hp : price = p <;> simp [hp]
      · -- the order goes further up, past the level at `q`
        rw [show insertAt price o ((q, l) :: rest) = (q, l) :: insertAt price o rest by
          simp [insertAt, hlt, heq], totalAt_cons, totalAt_cons, ih h.of_cons]
        by_cases hq : q = p
        · subst hq
          simp [heq]
        · simp [hq]

theorem totalAt_insert {ld : Ladder} (h : ld.levels.Pairwise (fun a b => a.1 < b.1))
    (o : Order) (p : UInt64) :
    (ld.insert o).totalAt p = ld.totalAt p + if o.price = p then o.size.toNat else 0 :=
  totalAt_insertAt h o.price o p

/-- A total is that of some level, or 0. -/
theorem totalAt_lt {ld : Ladder} {N : Nat} (h : ∀ e ∈ ld.levels, e.2.total < N) (hN : 0 < N)
    (p : UInt64) : ld.totalAt p < N := by
  unfold totalAt level?
  cases hf : ld.levels.find? (·.1 == p) with
  | none => simpa using hN
  | some e => simpa using h e (List.mem_of_find?_eq_some hf)

end Ladder

namespace Book

/-- The word steps of resting an order in one of the book's ladders: its size onto the total
of its level (a new level starts from 0), then one more order on the resting count. -/
def restSteps (b : Book) (ld : Ladder) (o : Order) : List WordOp :=
  [.add (ld.totalAt o.price) o.size.toNat, .add b.resting 1]

/-- Every level total of the book fits in a word. -/
def TotalsFit (b : Book) : Prop := ∀ ld ∈ b.ladders, ∀ e ∈ ld.levels, e.2.total < UInt64.size

/-- **A resting insert is exact** when the level totals of the ladder after it fit in a word
and the resting count has room for one more. -/
theorem restSteps_exact {b : Book} {ld : Ladder} (hld : ld.WF) {o : Order}
    (hfit : ∀ e ∈ (ld.insert o).levels, e.2.total < UInt64.size)
    (hcount : b.resting + 1 < UInt64.size) : ∀ w ∈ b.restSteps ld o, w.Exact := by
  intro w hw
  simp only [restSteps, List.mem_cons, List.not_mem_nil, or_false] at hw
  rcases hw with rfl | rfl
  · -- the total after the insert is the one before plus the size, and it fits
    have hafter := Ladder.totalAt_lt hfit (by decide) o.price
    have hsum := Ladder.totalAt_insert hld.ascending o o.price
    rw [if_pos rfl] at hsum
    rw [WordOp.exact_add]
    omega
  · simpa using hcount

theorem limitSide_insertLimit (b : Book) (o : Order) :
    (b.insertLimit o).limitSide o.side = (b.limitSide o.side).insert o := by
  unfold insertLimit
  split <;> rename_i h <;> simp [limitSide, h]

theorem stopSide_insertStop (b : Book) (o : Order) :
    (b.insertStop o).stopSide o.side = (b.stopSide o.side).insert o := by
  unfold insertStop
  split <;> rename_i h <;> simp [stopSide, h]

end Book

/-! ## Restores -/

namespace Ladder

/-- Filing orders at a price adds the sum of their sizes to the total there and changes no
other total. -/
theorem totalAt_fileAt {ld : Ladder} (h : ld.WF) (price : UInt64) (os : List Order)
    (p : UInt64) :
    (ld.fileAt price os).totalAt p = ld.totalAt p + if price = p then Level.sizeSum os else 0 := by
  induction os generalizing ld with
  | nil => simp [fileAt]
  | cons o os ih =>
    rw [fileAt_cons]
    split
    · rename_i hz
      rw [ih h]
      by_cases hp : price = p <;> simp [hp, hz]
    · rename_i hz
      have hwf : (ld.insert { o with price }).WF := insert_wf h (UInt64.pos_iff_ne_zero.2 hz)
      rw [ih hwf, totalAt_insert h.ascending]
      by_cases hp : price = p
      · simp only [hp, if_true, Level.sizeSum_cons, Nat.add_assoc]
      · simp [hp]

/-- Filing orders never lowers the total at any price. -/
theorem totalAt_le_fileAt {ld : Ladder} (h : ld.WF) (price : UInt64) (os : List Order)
    (p : UInt64) : ld.totalAt p ≤ (ld.fileAt price os).totalAt p := by
  rw [totalAt_fileAt h]
  exact Nat.le_add_right _ _

/-- ... and neither does rebuilding the entries of a price map onto a ladder. -/
theorem totalAt_le_foldl_fileAt {ld : Ladder} (h : ld.WF) (es : List (UInt64 × List Order))
    (p : UInt64) : ld.totalAt p ≤ (es.foldl (fun acc e => acc.fileAt e.1 e.2) ld).totalAt p := by
  induction es generalizing ld with
  | nil => exact Nat.le_refl _
  | cons e es ih => exact le_trans (totalAt_le_fileAt h e.1 e.2 p) (ih (fileAt_wf h e.1 e.2))

/-- **Filing stays in the word exactly when the total it ends with does**, from a total that
is a word. -/
theorem fileSteps_exact_iff {ld : Ladder} (h : ld.WF) (price : UInt64) (os : List Order)
    (h0 : ld.totalAt price < UInt64.size) :
    (∀ w ∈ ld.fileSteps price os, w.Exact) ↔ ld.totalAt price + Level.sizeSum os < UInt64.size := by
  induction os generalizing ld with
  | nil => simpa [fileSteps] using h0
  | cons o os ih =>
    by_cases hz : o.size = 0
    · rw [fileSteps, if_pos hz, ih h h0, Level.sizeSum_cons]
      simp [hz]
    · have hwf : (ld.insert { o with price }).WF := insert_wf h (UInt64.pos_iff_ne_zero.2 hz)
      -- the first step puts the order's size onto the total the rest goes on from
      have htot : (ld.insert { o with price }).totalAt price = ld.totalAt price + o.size.toNat := by
        simp [totalAt_insert h.ascending]
      simp only [fileSteps, if_neg hz, List.forall_mem_cons, WordOp.exact_add, Level.sizeSum_cons]
      constructor
      · rintro ⟨hfirst, hrest⟩
        have := (ih hwf (htot ▸ hfirst)).1 hrest
        omega
      · intro hall
        have hfirst : ld.totalAt price + o.size.toNat < UInt64.size := by omega
        exact ⟨hfirst, (ih hwf (htot ▸ hfirst)).2 (by omega)⟩

/-- **Filing is exact** when the total it ends with at that price fits in a word. -/
theorem fileSteps_exact {ld : Ladder} (h : ld.WF) (price : UInt64) (os : List Order)
    (hfit : (ld.fileAt price os).totalAt price < UInt64.size) :
    ∀ w ∈ ld.fileSteps price os, w.Exact := by
  rw [totalAt_fileAt h, if_pos rfl] at hfit
  exact (fileSteps_exact_iff h price os (by omega)).2 hfit

/-- **A rebuild is exact** when every total of the ladder it ends with fits in a word. -/
theorem rebuildSteps_exact {ld : Ladder} (h : ld.WF) (es : List (UInt64 × List Order))
    (hfit : ∀ p, (es.foldl (fun acc e => acc.fileAt e.1 e.2) ld).totalAt p < UInt64.size) :
    ∀ w ∈ ld.rebuildSteps es, w.Exact := by
  induction es generalizing ld with
  | nil => simp [rebuildSteps]
  | cons e es ih =>
    intro w hw
    have hwf := fileAt_wf h e.1 e.2
    rcases List.mem_append.1 hw with hw | hw
    · exact fileSteps_exact h e.1 e.2
        (lt_of_le_of_lt (totalAt_le_foldl_fileAt hwf es e.1) (hfit e.1)) w hw
    · exact ih hwf hfit w hw

/-- **Rebuilding a keyed map stays in the word exactly when every queue's sizes sum to a
word**: each key is new when it is filed, so its level's total ends as the sum of its
queue. -/
theorem rebuildSteps_exact_iff {ld : Ladder} (h : ld.WF) {m : List (UInt64 × List Order)}
    (hm : (m.map (·.1)).Pairwise (· < ·)) (hnew : ∀ e ∈ m, ld.totalAt e.1 = 0) :
    (∀ w ∈ ld.rebuildSteps m, w.Exact) ↔ ∀ e ∈ m, Level.sizeSum e.2 < UInt64.size := by
  induction m generalizing ld with
  | nil => simp [rebuildSteps]
  | cons e es ih =>
    rw [List.map_cons, List.pairwise_cons] at hm
    have h0 := hnew e List.mem_cons_self
    -- filing the first key leaves every later key new
    have hnew' : ∀ e' ∈ es, (ld.fileAt e.1 e.2).totalAt e'.1 = 0 := by
      intro e' he'
      have hne : e.1 ≠ e'.1 := UInt64.ne_of_lt (hm.1 e'.1 (List.mem_map_of_mem he'))
      rw [totalAt_fileAt h, if_neg hne, hnew e' (List.mem_cons_of_mem _ he'), Nat.add_zero]
    simp only [rebuildSteps, List.mem_append, or_imp, forall_and, List.forall_mem_cons]
    rw [fileSteps_exact_iff h e.1 e.2 (by rw [h0]; decide), ih (fileAt_wf h e.1 e.2) hm.2 hnew',
      h0, Nat.zero_add]

/-- Counting a ladder stays in the word exactly when its count is a word. -/
theorem countSteps_exact_iff (ld : Ladder) :
    (∀ w ∈ ld.countSteps, w.Exact) ↔ ld.count < UInt64.size := by
  rw [countSteps, WordOp.sumSteps_exact_iff (by decide), Nat.zero_add, count_eq_sum]

end Ladder

namespace Snapshot

/-- **The floor is exact** when no id of the snapshot is the last one. -/
theorem floorSteps_exact {s : Snapshot}
    (hs : ∀ o ∈ s.allOrders, o.id.toNat + 1 < UInt64.size) :
    ∀ w ∈ s.floorSteps, w.Exact := by
  intro w hw
  unfold floorSteps at hw
  have hpast := maxId?_succ s
  have hlt := pastIds_lt_size hs
  split at hw
  · simp at hw
  · rename_i m hm
    simp only [hm] at hpast
    rw [List.mem_singleton.1 hw, WordOp.exact_add]
    omega

/-- The floor stays in the word exactly when no id is the last word. -/
theorem floorSteps_exact_iff (s : Snapshot) :
    (∀ w ∈ s.floorSteps, w.Exact) ↔ ∀ o ∈ s.allOrders, o.id.toNat + 1 < UInt64.size := by
  refine ⟨fun h o ho => ?_, floorSteps_exact⟩
  have hpast := maxId?_succ s
  have hlt := lt_pastIds ho
  unfold floorSteps at h
  split at h
  · rename_i hm
    simp only [hm] at hpast
    omega
  · rename_i m hm
    simp only [hm] at hpast
    have hstep := h _ List.mem_cons_self
    rw [WordOp.exact_add] at hstep
    omega

/-- The counts of a restore stay in the word exactly when the number of orders it rebuilds
does. -/
theorem countSteps_restore_exact_iff (s : Snapshot) :
    ((∀ ld ∈ (Book.restore s).ladders, ∀ w ∈ ld.countSteps, w.Exact) ∧
      ∀ w ∈ WordOp.sumSteps 0 ((Book.restore s).ladders.map Ladder.count), w.Exact) ↔
      (Book.restore s).resting < UInt64.size := by
  have hsum : ((Book.restore s).ladders.map Ladder.count).sum = (Book.restore s).resting := by
    simp only [Book.ladders, Book.restore, List.map_cons, List.map_nil, List.sum_cons,
      List.sum_nil]
    omega
  rw [WordOp.sumSteps_exact_iff (by decide), Nat.zero_add, hsum]
  -- the sum bounds each count
  refine ⟨fun h => h.2, fun h => ⟨fun ld hld => ?_, h⟩⟩
  exact (Ladder.countSteps_exact_iff ld).2
    (lt_of_le_of_lt ((Book.restore_wf s).count_le_resting hld) h)

/-- **A restore is exact** when the book it rebuilds has its totals and its count in a word
and no id of the snapshot is the last one. -/
theorem restoreSteps_exact {s : Snapshot} (hfit : (Book.restore s).TotalsFit)
    (hcount : (Book.restore s).resting < UInt64.size)
    (hs : ∀ o ∈ s.allOrders, o.id.toNat + 1 < UInt64.size) :
    ∀ w ∈ s.restoreSteps, w.Exact := by
  have hcounts := (countSteps_restore_exact_iff s).2 hcount
  intro w hw
  simp only [restoreSteps, List.mem_append, List.mem_flatMap] at hw
  rcases hw with ((hw | ⟨es, hes, hw⟩) | ⟨ld, hld, hw⟩) | hw
  · exact floorSteps_exact hs w hw
  · -- each ladder is rebuilt from its entries and ends as the restored one
    have hld : Ladder.ofEntries es ∈ (Book.restore s).ladders := by
      simp only [List.mem_cons, List.not_mem_nil, or_false] at hes
      rcases hes with rfl | rfl | rfl | rfl <;> simp [Book.ladders, Book.restore]
    exact Ladder.rebuildSteps_exact Ladder.empty_wf es
      (Ladder.totalAt_lt (hfit _ hld) (by decide)) w hw
  · exact hcounts.1 ld hld w hw
  · exact hcounts.2 w hw

end Snapshot

/-! ## Runs of the book -/

namespace Book

theorem resting_insertLimit (b : Book) (o : Order) :
    (b.insertLimit o).resting = b.resting + 1 := by
  unfold insertLimit
  split <;> rfl

theorem resting_insertStop (b : Book) (o : Order) :
    (b.insertStop o).resting = b.resting + 1 := by
  unfold insertStop
  split <;> rfl

/-- A market order never adds to the resting count: whatever rests after it rested before,
and the order itself is executed. -/
theorem market_resting_le {b b' : Book} (hwf : b.WF) {id : UInt64} {side : Side}
    {size : UInt64} {user : String} {clock : UInt64} {fs : List Fill}
    (hm : b.market id side size user clock = some (b', fs)) : b'.resting ≤ b.resting := by
  obtain ⟨logged, -, hsub, hid, -⟩ := market_accounting hwf hm
  have hlen := hsub.length_le
  have hpos : 0 < logged.length := by
    obtain ⟨x, hx, -⟩ := List.mem_map.1 hid
    exact List.length_pos_of_mem hx
  have h₁ := hwf.resting_eq
  have h₂ := (market_wf hwf hm).resting_eq
  simp only [restingIds, List.length_append, List.length_map, List.length_singleton] at hlen
  omega

theorem cancel?_resting {b b' : Book} (hwf : b.WF) {id : UInt64} {o : Order}
    (hc : b.cancel? id = some (o, b')) : b'.resting + 1 = b.resting := by
  have hperm := (cancel?_accounting hc).2.1
  have h₁ := hwf.resting_eq
  have h₂ := (cancel?_wf hwf hc).resting_eq
  have := hperm.length_eq
  simp only [List.length_cons] at this
  omega

/-- The books the book's interface reaches, as `Reachable`, with the number of orders filed
since the empty book or the last restore: a resting insert files one, a restore files the
orders it rebuilds, and market orders and cancels file none. -/
inductive Filed : Nat → Book → Prop
  | empty : Filed 0 empty
  | insertLimit {n : Nat} {b : Book} {o : Order} :
      Filed n b → 0 < o.size → Filed (n + 1) (b.insertLimit o)
  | insertStop {n : Nat} {b : Book} {o : Order} :
      Filed n b → 0 < o.size → Filed (n + 1) (b.insertStop o)
  | market {n : Nat} {b b' : Book} {id : UInt64} {side : Side} {size : UInt64} {user : String}
      {clock : UInt64} {fs : List Fill} :
      Filed n b → b.market id side size user clock = some (b', fs) → Filed n b'
  | cancel {n : Nat} {b b' : Book} {id : UInt64} {o : Order} :
      Filed n b → b.cancel? id = some (o, b') → Filed n b'
  | restore (s : Snapshot) : Filed (restore s).resting (restore s)

theorem Filed.reachable {n : Nat} {b : Book} (h : Filed n b) : b.Reachable := by
  induction h with
  | empty => exact .empty
  | insertLimit _ hs ih => exact .insertLimit ih hs
  | insertStop _ hs ih => exact .insertStop ih hs
  | market _ hm ih => exact .market ih hm
  | cancel _ hc ih => exact .cancel ih hc
  | restore s => exact .restore s

/-- The resting count never exceeds the orders filed. -/
theorem Filed.resting_le {n : Nat} {b : Book} (h : Filed n b) : b.resting ≤ n := by
  induction h with
  | empty => exact Nat.le_refl 0
  | insertLimit _ _ ih => rw [resting_insertLimit]; omega
  | insertStop _ _ ih => rw [resting_insertStop]; omega
  | market hb hm ih => exact le_trans (market_resting_le hb.reachable.wf hm) ih
  | cancel hb hc ih =>
    have := cancel?_resting hb.reachable.wf hc
    omega
  | restore s => exact Nat.le_refl _

/-- **No word step of the book leaves its word.**  On every book a run reaches, having filed
`n` orders:

* a cancel's steps are exact;
* every execution a market order performs, its own and that of each stop of its cascade,
  makes exact fill steps on the book it meets, never runs its fill loop dry, and when it
  drains its level the release that follows is exact;
* a resting insert is exact when it is at most the `2 ^ 64 - 1`-th order filed and leaves
  every level total in a word;
* a restore, and the floor it computes, are exact when the book it rebuilds has every level
  total and its count in a word and no id of the snapshot is the last one. -/
theorem word_steps_exact {n : Nat} {b : Book} (h : Filed n b) :
    (∀ id, ∀ w ∈ b.cancelSteps id, w.Exact) ∧
    (∀ id side size user clock c o, MarketExec clock b id side size user c o →
      (∀ w ∈ c.fillSteps o.side o.size, w.Exact) ∧ c.fillRunsDry o.side o.size = false ∧
      ∀ c' fs, c.execute o clock = some (true, c', fs) →
        ∀ w ∈ c'.releaseSteps o.side.opposite, w.Exact) ∧
    (∀ o, n + 1 < UInt64.size → (b.insertLimit o).TotalsFit →
      ∀ w ∈ b.restSteps (b.limitSide o.side) o, w.Exact) ∧
    (∀ o, n + 1 < UInt64.size → (b.insertStop o).TotalsFit →
      ∀ w ∈ b.restSteps (b.stopSide o.side) o, w.Exact) ∧
    (∀ s : Snapshot, (restore s).TotalsFit → (restore s).resting < UInt64.size →
      (∀ o ∈ s.allOrders, o.id.toNat + 1 < UInt64.size) → ∀ w ∈ s.restoreSteps, w.Exact) := by
  have hwf := h.reachable.wf
  have hcount := h.resting_le
  refine ⟨hwf.cancelSteps_exact, ?_, ?_, ?_,
    fun s hfit hs hids => s.restoreSteps_exact hfit hs hids⟩
  · -- every execution of the cascade meets a well-formed book
    intro id side size user clock c o hexec
    have hc := market_wf_states clock hwf hexec
    refine ⟨hc.fillSteps_exact o.side o.size, hc.fillRunsDry_eq_false o.side o.size, ?_⟩
    intro c' fs hx
    exact (execute_wf hc hx).releaseSteps_exact o.side.opposite
  · intro o hn hfit
    have hld := limitSide_mem_ladders (b.insertLimit o) o.side
    rw [limitSide_insertLimit] at hld
    exact restSteps_exact (hwf.mem_ladders (b.limitSide_mem_ladders o.side)) (hfit _ hld)
      (by omega)
  · intro o hn hfit
    have hld := stopSide_mem_ladders (b.insertStop o) o.side
    rw [stopSide_insertStop] at hld
    exact restSteps_exact (hwf.mem_ladders (b.stopSide_mem_ladders o.side)) (hfit _ hld)
      (by omega)

/-- The book of one bid of 5 has filed one order, and a market sell of 3 against it fills
exactly. -/
theorem word_steps_exact_rest_then_market :
    Filed 1 singleBidBook ∧ ∀ w ∈ singleBidBook.fillSteps .ask 3, w.Exact :=
  have hf : Filed 1 singleBidBook := .insertLimit .empty (by decide)
  ⟨hf, ((word_steps_exact hf).2.1 1 .ask 3 "bob" 0 _ _ (Or.inl ⟨rfl, rfl⟩)).1⟩

end Book

end Bourse
