import Mathlib.Data.List.Perm.Subperm
import Bourse.Book.Snapshot
import Bourse.Proofs.Queue

/-!
# The shape of a ladder

A ladder stands for an ordered map from prices to levels.  The map's own guarantees (one
level per price, prices in ascending order) are not in the type, so `Ladder.WF` states
them, together with the shape of each level (`Level.WF`).

Every operation the book performs on a ladder keeps it well formed, and each of them has
a conservation law over `Ladder.orders`, the resting orders in ascending price and then
FIFO order:

* `insert_wf`, `orders_insert_perm`: an order of positive size joins its level;
* `remove?_wf`, `orders_remove?_perm`: a removal takes one order out, the first of its id
  (`removeFrom_first`), and fails only when no order has the id (`remove?_eq_none_iff`);
* `setLevel_wf`, `levels_setLevel`: replacing the level at a price touches nothing else;
* `takeAtOrBelow_eq`, `takeAtOrAbove_eq`: a take keeps the levels on one side of the price,
  the split at the checked successor included (`lt_of_checkedSucc_eq_some`), and at the
  largest price, where there is none, takes every level (`le_of_checkedSucc_eq_none`);
* `takeAtOrBelow_wf`, `orders_takeAtOrBelow_perm` and their mirror images: a split at a
  trigger price hands over the taken orders and keeps the rest.

Under `WF`, `highest` and `lowest` are the largest and smallest prices with a level
(`highest_eq_some_iff`, `lowest_eq_some_iff`), and the orders at a price are exactly the
queue of its level (`filter_orders_price`).
-/

namespace Bourse

namespace Ladder

/-- The prices with a level, in ladder order. -/
def keys (ld : Ladder) : List UInt64 := ld.levels.map (·.1)

/-- A ladder as the book keeps it: prices strictly ascending and every level well formed
at its price. -/
structure WF (ld : Ladder) : Prop where
  ascending : ld.levels.Pairwise (fun a b => a.1 < b.1)
  level_wf : ∀ e ∈ ld.levels, e.2.WF e.1

theorem empty_wf : empty.WF := ⟨List.Pairwise.nil, by simp⟩

@[simp] theorem orders_mk (ls : List (UInt64 × Level)) :
    orders { levels := ls } = ls.flatMap (·.2.queue) := rfl

theorem count_eq (ld : Ladder) : ld.count = ld.orders.length := rfl

theorem mem_orders {ld : Ladder} {o : Order} :
    o ∈ ld.orders ↔ ∃ e ∈ ld.levels, o ∈ e.2.queue := by
  simp [orders]

/-- Every resting order of a well-formed ladder has positive size and is priced at the key
of its level. -/
theorem WF.mem_orders {ld : Ladder} (h : ld.WF) {o : Order} (ho : o ∈ ld.orders) :
    0 < o.size ∧ o.price ∈ ld.keys := by
  obtain ⟨e, he, hoe⟩ := Ladder.mem_orders.1 ho
  refine ⟨(h.level_wf e he).sized o hoe, ?_⟩
  rw [(h.level_wf e he).priced o hoe]
  exact List.mem_map.2 ⟨e, he, rfl⟩

/-! ## Inserting -/

theorem mem_insertAt {price : UInt64} {o : Order} {ls : List (UInt64 × Level)}
    {e : UInt64 × Level} (h : e ∈ insertAt price o ls) :
    e.1 = price ∨ ∃ e' ∈ ls, e'.1 = e.1 := by
  induction ls with
  | nil => simp_all [insertAt]
  | cons hd tl ih =>
    obtain ⟨p, l⟩ := hd
    simp only [insertAt] at h
    split_ifs at h with h1 h2
    · rcases List.mem_cons.1 h with rfl | h
      · exact Or.inl rfl
      · exact Or.inr ⟨e, h, rfl⟩
    · rcases List.mem_cons.1 h with rfl | h
      · exact Or.inr ⟨(p, l), List.mem_cons_self, rfl⟩
      · exact Or.inr ⟨e, List.mem_cons_of_mem _ h, rfl⟩
    · rcases List.mem_cons.1 h with rfl | h
      · exact Or.inr ⟨(p, l), List.mem_cons_self, rfl⟩
      · rcases ih h with h | ⟨e', he', hk⟩
        · exact Or.inl h
        · exact Or.inr ⟨e', List.mem_cons_of_mem _ he', hk⟩

theorem insertAt_ascending {o : Order} {ls : List (UInt64 × Level)}
    (h : ls.Pairwise (fun a b => a.1 < b.1)) :
    (insertAt o.price o ls).Pairwise (fun a b => a.1 < b.1) := by
  induction ls with
  | nil => simp [insertAt]
  | cons hd tl ih =>
    obtain ⟨p, l⟩ := hd
    simp only [insertAt]
    split_ifs with h1 h2
    · refine h.cons fun a ha => ?_
      rcases List.mem_cons.1 ha with rfl | ha
      · exact h1
      · exact UInt64.lt_trans h1 (List.rel_of_pairwise_cons h ha)
    · exact h.of_cons.cons fun a ha => List.rel_of_pairwise_cons h ha
    · -- the order goes further up: every key it meets there is above `p`
      refine (ih h.of_cons).cons fun a ha => ?_
      rcases mem_insertAt ha with ha | ⟨e', he', hk⟩
      · rw [ha]; grind
      · rw [← hk]; exact List.rel_of_pairwise_cons h he'

theorem insertAt_level_wf {o : Order} (hs : 0 < o.size) {ls : List (UInt64 × Level)}
    (h : ∀ e ∈ ls, e.2.WF e.1) : ∀ e ∈ insertAt o.price o ls, e.2.WF e.1 := by
  induction ls with
  | nil => simpa [insertAt] using Level.single_wf hs
  | cons hd tl ih =>
    obtain ⟨p, l⟩ := hd
    have htl : ∀ e ∈ tl, e.2.WF e.1 := fun e he => h e (List.mem_cons_of_mem _ he)
    simp only [insertAt]
    split_ifs with h1 h2
    · intro e he
      rcases List.mem_cons.1 he with rfl | he
      · exact Level.single_wf hs
      · exact h e he
    · intro e he
      rcases List.mem_cons.1 he with rfl | he
      · exact Level.push_wf (h (p, l) List.mem_cons_self) hs h2
      · exact htl e he
    · intro e he
      rcases List.mem_cons.1 he with rfl | he
      · exact h _ List.mem_cons_self
      · exact ih htl e he

/-- Inserting an order of positive size keeps a ladder well formed. -/
theorem insert_wf {ld : Ladder} (h : ld.WF) {o : Order} (hs : 0 < o.size) : (ld.insert o).WF where
  ascending := insertAt_ascending h.ascending
  level_wf := insertAt_level_wf hs h.level_wf

theorem flatMap_insertAt_perm (price : UInt64) (o : Order) (ls : List (UInt64 × Level)) :
    List.Perm ((insertAt price o ls).flatMap (·.2.queue)) (ls.flatMap (·.2.queue) ++ [o]) := by
  induction ls with
  | nil => simp [insertAt, Level.single]
  | cons hd tl ih =>
    obtain ⟨p, l⟩ := hd
    simp only [insertAt]
    split_ifs
    · simpa [Level.single] using
        (List.perm_append_singleton o (l.queue ++ tl.flatMap (·.2.queue))).symm
    · simpa using (List.perm_append_singleton o (tl.flatMap (·.2.queue))).symm.append_left l.queue
    · simpa using ih.append_left l.queue

/-- An insert adds exactly the one order. -/
theorem orders_insert_perm (ld : Ladder) (o : Order) :
    List.Perm (ld.insert o).orders (ld.orders ++ [o]) :=
  flatMap_insertAt_perm o.price o ld.levels

theorem count_insert (ld : Ladder) (o : Order) : (ld.insert o).count = ld.count + 1 := by
  simp [count_eq, (orders_insert_perm ld o).length_eq]

/-! ## Removing an order -/

/-- A removal fails exactly when no level holds an order of the id. -/
theorem removeFrom_eq_none_iff {id : UInt64} {ls : List (UInt64 × Level)} :
    removeFrom id ls = none ↔ ∀ x ∈ ls.flatMap (·.2.queue), x.id ≠ id := by
  induction ls with
  | nil => simp [removeFrom]
  | cons hd tl ih =>
    obtain ⟨p, l⟩ := hd
    simp only [removeFrom]
    split
    · rename_i o l' hl
      -- the level holds an order of the id
      obtain ⟨front, back, hq, -, hid, -⟩ := Level.remove?_eq_some hl
      simp only [reduceCtorEq, false_iff, not_forall, not_not]
      exact ⟨o, by simp [hq], hid⟩
    · rename_i hl
      rw [Option.map_eq_none_iff, ih, List.flatMap_cons, List.forall_mem_append]
      exact (and_iff_right (Level.remove?_eq_none_iff.1 hl)).symm

/-- A successful removal found its order in the first level that holds the id, after levels
that hold none; that level is replaced by what is left of it, or dropped when nothing is
left. -/
theorem removeFrom_first {id : UInt64} {ls ls' : List (UInt64 × Level)} {o : Order}
    (h : removeFrom id ls = some (o, ls')) :
    ∃ pre p l l' post, ls = pre ++ (p, l) :: post ∧ (∀ x ∈ pre.flatMap (·.2.queue), x.id ≠ id) ∧
      l.remove? id = some (o, l') ∧
      ls' = pre ++ (if l'.queue.isEmpty then [] else [(p, l')]) ++ post := by
  induction ls generalizing ls' with
  | nil => simp [removeFrom] at h
  | cons hd tl ih =>
    obtain ⟨p, l⟩ := hd
    simp only [removeFrom] at h
    split at h
    · rename_i o' l' hl
      simp only [Option.some.injEq, Prod.mk.injEq] at h
      obtain ⟨rfl, rfl⟩ := h
      refine ⟨[], p, l, l', tl, rfl, by simp, hl, ?_⟩
      split <;> simp_all
    · rename_i hl
      obtain ⟨⟨o', rest'⟩, hrest, heq⟩ := Option.map_eq_some_iff.1 h
      simp only [Prod.mk.injEq] at heq
      obtain ⟨rfl, rfl⟩ := heq
      obtain ⟨pre, p', l₀, l', post, rfl, hpre, hl', rfl⟩ := ih hrest
      refine ⟨(p, l) :: pre, p', l₀, l', post, rfl, ?_, hl', by simp⟩
      -- the level passed over holds no order of the id
      rw [List.flatMap_cons, List.forall_mem_append]
      exact ⟨Level.remove?_eq_none_iff.1 hl, hpre⟩

/-- A successful removal found its order in one level; that level is replaced by what is left
of it, or dropped when nothing is left. -/
theorem removeFrom_eq_some {id : UInt64} {ls ls' : List (UInt64 × Level)} {o : Order}
    (h : removeFrom id ls = some (o, ls')) :
    ∃ pre p l l' post, ls = pre ++ (p, l) :: post ∧ l.remove? id = some (o, l') ∧
      ls' = pre ++ (if l'.queue.isEmpty then [] else [(p, l')]) ++ post := by
  obtain ⟨pre, p, l, l', post, hls, -, hl, hls'⟩ := removeFrom_first h
  exact ⟨pre, p, l, l', post, hls, hl, hls'⟩

/-- What is left of a level contributes its queue whether the level stays or is dropped. -/
theorem flatMap_kept (p : UInt64) (l : Level) :
    (if l.queue.isEmpty then [] else [(p, l)]).flatMap (·.2.queue) = l.queue := by
  split
  · rename_i h
    simpa using (List.isEmpty_iff.1 h).symm
  · simp

theorem remove?_eq_some {ld : Ladder} {id : UInt64} {o : Order} {ld' : Ladder}
    (hr : ld.remove? id = some (o, ld')) :
    ∃ pre p l l' post, ld.levels = pre ++ (p, l) :: post ∧ l.remove? id = some (o, l') ∧
      ld'.levels = pre ++ (if l'.queue.isEmpty then [] else [(p, l')]) ++ post := by
  obtain ⟨⟨o', ls'⟩, hrem, heq⟩ := Option.map_eq_some_iff.1 hr
  simp only [Prod.mk.injEq] at heq
  obtain ⟨rfl, rfl⟩ := heq
  exact removeFrom_eq_some hrem

/-- A removal keeps a ladder well formed: the level it touched stays only if non-empty. -/
theorem remove?_wf {ld : Ladder} (h : ld.WF) {id : UInt64} {o : Order} {ld' : Ladder}
    (hr : ld.remove? id = some (o, ld')) : ld'.WF := by
  obtain ⟨pre, p, l, l', post, hls, hl, hls'⟩ := remove?_eq_some hr
  have hasc := h.ascending
  have hwf := h.level_wf
  rw [hls] at hasc hwf
  have hlwf : l.WF p := hwf (p, l) (by simp)
  constructor
  · rw [hls']
    split
    · rw [List.append_nil]
      exact hasc.sublist ((List.sublist_cons_self _ _).append_left pre)
    · -- the kept level has the same price as before
      have hkeys : (pre ++ [(p, l')] ++ post).map (·.1) = (pre ++ (p, l) :: post).map (·.1) := by
        simp
      exact List.pairwise_map.1 (hkeys ▸ List.pairwise_map.2 hasc)
  · intro e he
    rw [hls'] at he
    simp only [List.mem_append] at he
    rcases he with (he | he) | he
    · exact hwf e (by simp [he])
    · split at he
      · simp at he
      · rename_i hne
        rw [List.mem_singleton.1 he]
        exact hlwf.remove? hl (by simpa using hne)
    · exact hwf e (by simp [he])

/-- A removal takes exactly the one order out. -/
theorem orders_remove?_perm {ld : Ladder} {id : UInt64} {o : Order} {ld' : Ladder}
    (hr : ld.remove? id = some (o, ld')) : List.Perm (o :: ld'.orders) ld.orders := by
  obtain ⟨pre, p, l, l', post, hls, hl, hls'⟩ := remove?_eq_some hr
  have h' : ld'.orders = pre.flatMap (·.2.queue) ++ l'.queue ++ post.flatMap (·.2.queue) := by
    simp only [orders, hls', List.flatMap_append, flatMap_kept]
  obtain ⟨qpre, qpost, hq, -, -, rfl⟩ := Level.remove?_eq_some hl
  have h : ld.orders = pre.flatMap (·.2.queue) ++ (qpre ++ o :: qpost) ++ post.flatMap (·.2.queue) := by
    simp [orders, hls, hq]
  rw [h', h]
  simpa using (@List.perm_middle _ o (pre.flatMap (·.2.queue) ++ qpre)
    (qpost ++ post.flatMap (·.2.queue))).symm

/-- A removal from a ladder fails exactly when no resting order has the id. -/
theorem remove?_eq_none_iff {ld : Ladder} {id : UInt64} :
    ld.remove? id = none ↔ ∀ x ∈ ld.orders, x.id ≠ id := by
  rw [remove?, Option.map_eq_none_iff, removeFrom_eq_none_iff, orders]

theorem id_of_remove? {ld : Ladder} {id : UInt64} {o : Order} {ld' : Ladder}
    (hr : ld.remove? id = some (o, ld')) : o.id = id := by
  obtain ⟨-, -, l, l', -, -, hl, -⟩ := remove?_eq_some hr
  obtain ⟨-, -, -, -, hid, -⟩ := Level.remove?_eq_some hl
  exact hid

theorem count_remove? {ld : Ladder} {id : UInt64} {o : Order} {ld' : Ladder}
    (hr : ld.remove? id = some (o, ld')) : ld'.count + 1 = ld.count := by
  simpa [count_eq] using (orders_remove?_perm hr).length_eq

/-! ## Locating a price -/

/-- In a well-formed ladder a level splits the others into the lower and the higher ones. -/
theorem WF.split {ld : Ladder} (h : ld.WF) {p : UInt64} {l : Level} (hl : (p, l) ∈ ld.levels) :
    ∃ pre post, ld.levels = pre ++ (p, l) :: post ∧ (∀ e ∈ pre, e.1 < p) ∧
      (∀ e ∈ post, p < e.1) := by
  obtain ⟨pre, post, hls⟩ := List.mem_iff_append.1 hl
  have hasc := h.ascending
  rw [hls, List.pairwise_append, List.pairwise_cons] at hasc
  exact ⟨pre, post, hls, fun e he => hasc.2.2 e he (p, l) List.mem_cons_self, hasc.2.1.1⟩

theorem filterMap_setLevel_of_ne {price : UInt64} {l? : Option Level} {ls : List (UInt64 × Level)}
    (h : ∀ e ∈ ls, e.1 ≠ price) :
    ls.filterMap (fun (p, l) => if p = price then l?.map (p, ·) else some (p, l)) = ls := by
  induction ls with
  | nil => rfl
  | cons e tl ih =>
    obtain ⟨p, l⟩ := e
    have hp : p ≠ price := h (p, l) List.mem_cons_self
    simp [hp, ih fun e he => h e (List.mem_cons_of_mem _ he)]

/-- Replacing the level at a price of a well-formed ladder touches no other level. -/
theorem levels_setLevel {ld : Ladder} (h : ld.WF) {p : UInt64} {l : Level} (hl : (p, l) ∈ ld.levels)
    (l? : Option Level) :
    ∃ pre post, ld.levels = pre ++ (p, l) :: post ∧
      (ld.setLevel p l?).levels = pre ++ l?.toList.map (p, ·) ++ post := by
  obtain ⟨pre, post, hls, hpre, hpost⟩ := h.split hl
  refine ⟨pre, post, hls, ?_⟩
  have hpre' : ∀ e ∈ pre, e.1 ≠ p := fun e he => UInt64.ne_of_lt (hpre e he)
  have hpost' : ∀ e ∈ post, e.1 ≠ p := fun e he => (UInt64.ne_of_lt (hpost e he)).symm
  simp only [setLevel, hls, List.filterMap_append, List.filterMap_cons,
    filterMap_setLevel_of_ne hpre', filterMap_setLevel_of_ne hpost']
  cases l? <;> simp

/-- Replacing a level by a well-formed one, or dropping it, keeps the ladder well formed. -/
theorem setLevel_wf {ld : Ladder} (h : ld.WF) {p : UInt64} {l : Level} (hl : (p, l) ∈ ld.levels)
    {l? : Option Level} (hl? : ∀ l' ∈ l?, l'.WF p) : (ld.setLevel p l?).WF := by
  obtain ⟨pre, post, hls, hls'⟩ := levels_setLevel h hl l?
  have hasc := h.ascending
  have hwf := h.level_wf
  rw [hls] at hasc hwf
  constructor
  · rw [hls']
    cases l? with
    | none => simpa using hasc.sublist ((List.sublist_cons_self _ _).append_left pre)
    | some l' =>
      have hkeys : (pre ++ [(p, l')] ++ post).map (·.1) = (pre ++ (p, l) :: post).map (·.1) := by
        simp
      have hasc' : (pre ++ [(p, l')] ++ post).Pairwise (fun a b => a.1 < b.1) :=
        List.pairwise_map.1 (hkeys ▸ List.pairwise_map.2 hasc)
      simpa using hasc'
  · intro e he
    rw [hls'] at he
    simp only [List.mem_append, List.mem_map, Option.mem_toList] at he
    rcases he with (he | ⟨l', hl', rfl⟩) | he
    · exact hwf e (by simp [he])
    · exact hl? l' hl'
    · exact hwf e (by simp [he])

/-- Under `WF` the level found at a price is the one filed under it. -/
theorem WF.level?_eq_some_iff {ld : Ladder} (h : ld.WF) {p : UInt64} {l : Level} :
    ld.level? p = some l ↔ (p, l) ∈ ld.levels := by
  constructor
  · intro hl
    obtain ⟨e, he, rfl⟩ := Option.map_eq_some_iff.1 hl
    have hk : e.1 = p := by simpa using List.find?_some he
    rw [← hk]
    exact List.mem_of_find?_eq_some he
  · intro hl
    obtain ⟨pre, post, hls, hpre, -⟩ := h.split hl
    have hnone : pre.find? (·.1 == p) = none :=
      List.find?_eq_none.2 fun e he => by simpa using UInt64.ne_of_lt (hpre e he)
    simp [level?, hls, List.find?_append, hnone]

/-- Under `WF` the orders priced at a key are exactly the queue of its level. -/
theorem WF.filter_orders_price {ld : Ladder} (h : ld.WF) {p : UInt64} {l : Level}
    (hl : (p, l) ∈ ld.levels) : ld.orders.filter (·.price == p) = l.queue := by
  obtain ⟨pre, post, hls, hpre, hpost⟩ := h.split hl
  have hwf : ∀ e ∈ ld.levels, e.2.WF e.1 := h.level_wf
  have hother : ∀ e ∈ pre ++ post, ∀ o ∈ e.2.queue, o.price ≠ p := by
    intro e he o ho
    have he' : e ∈ ld.levels := by
      rw [hls]; rcases List.mem_append.1 he with he | he <;> simp [he]
    rw [(hwf e he').priced o ho]
    rcases List.mem_append.1 he with he | he
    · exact UInt64.ne_of_lt (hpre e he)
    · exact (UInt64.ne_of_lt (hpost e he)).symm
  have hlp : ∀ o ∈ l.queue, o.price = p := (hwf (p, l) (by simp [hls])).priced
  have hnone : ∀ ls : List (UInt64 × Level), (∀ e ∈ ls, e ∈ pre ++ post) →
      (ls.flatMap (·.2.queue)).filter (·.price == p) = [] := by
    intro ls hls'
    refine List.filter_eq_nil_iff.2 fun o ho => ?_
    obtain ⟨e, he, hoe⟩ := List.mem_flatMap.1 ho
    simpa using hother e (hls' e he) o hoe
  have hpre' := hnone pre (fun e he => by simp [he])
  have hpost' := hnone post (fun e he => by simp [he])
  have hl' : l.queue.filter (·.price == p) = l.queue := List.filter_eq_self.2 (by simpa using hlp)
  simp only [orders, hls, List.flatMap_append, List.flatMap_cons, List.filter_append, hpre', hpost',
    hl', List.nil_append, List.append_nil]

/-! ## The best prices -/

/-- **The highest level is the largest price.** -/
theorem WF.highest_eq_some_iff {ld : Ladder} (h : ld.WF) {p : UInt64} :
    ld.highest = some p ↔ p ∈ ld.keys ∧ ∀ q ∈ ld.keys, q ≤ p := by
  -- the last level is above every other one
  have hlast : ∀ e, ld.levels.getLast? = some e → ∀ q ∈ ld.keys, q ≤ e.1 := by
    intro e he q hq
    obtain ⟨ys, hys⟩ := List.getLast?_eq_some_iff.1 he
    have hasc := h.ascending
    rw [hys, List.pairwise_append] at hasc
    obtain ⟨e', he', rfl⟩ := List.mem_map.1 hq
    rw [hys] at he'
    rcases List.mem_append.1 he' with he' | he'
    · exact UInt64.le_of_lt (hasc.2.2 e' he' e List.mem_cons_self)
    · rw [List.mem_singleton.1 he']; exact UInt64.le_refl _
  constructor
  · intro hp
    obtain ⟨e, he, rfl⟩ := Option.map_eq_some_iff.1 hp
    exact ⟨List.mem_map.2 ⟨e, List.mem_of_getLast? he, rfl⟩, hlast e he⟩
  · rintro ⟨hp, hmax⟩
    have hne : ld.levels ≠ [] := by
      intro hnil; simp [keys, hnil] at hp
    obtain ⟨e, he⟩ := Option.ne_none_iff_exists'.1 (List.getLast?_eq_none_iff.not.2 hne)
    have hek : e.1 ∈ ld.keys := List.mem_map.2 ⟨e, List.mem_of_getLast? he, rfl⟩
    simp only [highest, he, Option.map_some, Option.some.injEq]
    exact UInt64.le_antisymm (hmax e.1 hek) (hlast e he p hp)

/-- **The lowest level is the smallest price.** -/
theorem WF.lowest_eq_some_iff {ld : Ladder} (h : ld.WF) {p : UInt64} :
    ld.lowest = some p ↔ p ∈ ld.keys ∧ ∀ q ∈ ld.keys, p ≤ q := by
  -- the first level is below every other one
  have hfirst : ∀ e, ld.levels.head? = some e → ∀ q ∈ ld.keys, e.1 ≤ q := by
    intro e he q hq
    obtain ⟨tl, htl⟩ := List.head?_eq_some_iff.1 he
    have hasc := h.ascending
    rw [htl, List.pairwise_cons] at hasc
    obtain ⟨e', he', rfl⟩ := List.mem_map.1 hq
    rw [htl] at he'
    rcases List.mem_cons.1 he' with rfl | he'
    · exact UInt64.le_refl _
    · exact UInt64.le_of_lt (hasc.1 e' he')
  constructor
  · intro hp
    obtain ⟨e, he, rfl⟩ := Option.map_eq_some_iff.1 hp
    exact ⟨List.mem_map.2 ⟨e, List.mem_of_head? he, rfl⟩, hfirst e he⟩
  · rintro ⟨hp, hmin⟩
    have hne : ld.levels ≠ [] := by
      intro hnil; simp [keys, hnil] at hp
    obtain ⟨e, he⟩ := Option.ne_none_iff_exists'.1 (List.head?_eq_none_iff.not.2 hne)
    have hek : e.1 ∈ ld.keys := List.mem_map.2 ⟨e, List.mem_of_head? he, rfl⟩
    simp only [lowest, he, Option.map_some, Option.some.injEq]
    exact UInt64.le_antisymm (hfirst e he p hp) (hmin e.1 hek)

/-! ## Splitting at a trigger price -/

/-- Keeping the levels that pass a test keeps a ladder well formed. -/
theorem WF.filter {ld : Ladder} (h : ld.WF) (keep : UInt64 × Level → Bool) :
    (⟨ld.levels.filter keep⟩ : Ladder).WF where
  ascending := h.ascending.filter keep
  level_wf := fun e he => h.level_wf e (List.mem_filter.1 he).1

/-- The levels that pass a test and those that fail it hold the ladder's orders between them. -/
theorem orders_filter_perm (ld : Ladder) (keep : UInt64 × Level → Bool) :
    List.Perm ((ld.levels.filter keep).flatMap (·.2.queue) ++
      (⟨ld.levels.filter fun e => !keep e⟩ : Ladder).orders) ld.orders := by
  rw [orders_mk, ← List.flatMap_append]
  exact (List.filter_append_perm keep ld.levels).flatMap_right _

/-- The words below a checked successor are those at or below the word itself. -/
theorem lt_of_checkedSucc_eq_some {x bound : UInt64} (h : checkedSucc x = some bound)
    (k : UInt64) : k < bound ↔ k ≤ x := by
  unfold checkedSucc at h
  split at h
  · rename_i hx
    cases h
    rw [UInt64.lt_iff_toNat_lt, UInt64.le_iff_toNat_le, UInt64.toNat_add, UInt64.toNat_one,
      Nat.mod_eq_of_lt hx]
    omega
  · cases h

/-- Checked addition refuses only the largest word, and every word lies at or below it. -/
theorem le_of_checkedSucc_eq_none {x : UInt64} (h : checkedSucc x = none) (k : UInt64) :
    k ≤ x := by
  unfold checkedSucc at h
  split at h
  · cases h
  · rename_i hx
    have hk := k.toNat_lt_size
    rw [UInt64.le_iff_toNat_le]
    omega

theorem splitOff_eq (ld : Ladder) (key : UInt64) :
    ld.splitOff key = (⟨ld.levels.filter (·.1 < key)⟩,
      ⟨ld.levels.filter fun e => !decide (e.1 < key)⟩) := by
  simp [splitOff, List.partition_eq_filter_filter, Function.comp_def]

/-- Taking at or below a price takes the levels keyed at or below it, whether the split is
made at the next price up or, at the largest price, not made at all. -/
theorem takeAtOrBelow_eq (ld : Ladder) (price : UInt64) :
    ld.takeAtOrBelow price = ((ld.levels.filter (·.1 ≤ price)).flatMap (·.2.queue),
      ⟨ld.levels.filter fun e => !decide (e.1 ≤ price)⟩) := by
  cases h : checkedSucc price with
  | some bound => simp [takeAtOrBelow, h, splitOff_eq, lt_of_checkedSucc_eq_some h]
  | none => simp [takeAtOrBelow, h, le_of_checkedSucc_eq_none h, orders, empty]

theorem takeAtOrAbove_eq (ld : Ladder) (price : UInt64) :
    ld.takeAtOrAbove price = ((ld.levels.filter (price ≤ ·.1)).flatMap (·.2.queue),
      ⟨ld.levels.filter fun e => !decide (price ≤ e.1)⟩) := by
  simp [takeAtOrAbove, splitOff_eq, ← decide_not, UInt64.not_lt, UInt64.not_le]

theorem takeAtOrBelow_wf {ld : Ladder} (h : ld.WF) (price : UInt64) :
    (ld.takeAtOrBelow price).2.WF := by
  rw [takeAtOrBelow_eq]
  exact h.filter _

theorem takeAtOrAbove_wf {ld : Ladder} (h : ld.WF) (price : UInt64) :
    (ld.takeAtOrAbove price).2.WF := by
  rw [takeAtOrAbove_eq]
  exact h.filter _

/-- A split at a trigger price loses and duplicates nothing. -/
theorem orders_takeAtOrBelow_perm (ld : Ladder) (price : UInt64) :
    List.Perm ((ld.takeAtOrBelow price).1 ++ (ld.takeAtOrBelow price).2.orders) ld.orders := by
  rw [takeAtOrBelow_eq]
  exact orders_filter_perm ld (fun e => decide (e.1 ≤ price))

theorem orders_takeAtOrAbove_perm (ld : Ladder) (price : UInt64) :
    List.Perm ((ld.takeAtOrAbove price).1 ++ (ld.takeAtOrAbove price).2.orders) ld.orders := by
  rw [takeAtOrAbove_eq]
  exact orders_filter_perm ld (fun e => decide (price ≤ e.1))

/-! ## Rebuilding from a price map -/

theorem fileAt_cons (ld : Ladder) (price : UInt64) (o : Order) (os : List Order) :
    ld.fileAt price (o :: os) =
      (if o.size = 0 then ld else ld.insert { o with price }).fileAt price os := rfl

theorem fileAt_wf {ld : Ladder} (h : ld.WF) (price : UInt64) (os : List Order) :
    (ld.fileAt price os).WF := by
  induction os generalizing ld with
  | nil => exact h
  | cons o os ih =>
    rw [fileAt_cons]
    split
    · exact ih h
    · rename_i hs
      exact ih (insert_wf h (UInt64.pos_iff_ne_zero.2 hs))

/-- A ladder rebuilt from any price map is well formed: orders of size 0 are skipped and
every other order is filed at its key. -/
theorem ofEntries_wf (entries : List (UInt64 × List Order)) : (ofEntries entries).WF := by
  suffices ∀ ld : Ladder, ld.WF → (entries.foldl (fun acc e => acc.fileAt e.1 e.2) ld).WF from
    this empty empty_wf
  induction entries with
  | nil => intro ld h; exact h
  | cons e es ih =>
    intro ld h
    exact ih _ (fileAt_wf h e.1 e.2)

end Ladder

end Bourse
