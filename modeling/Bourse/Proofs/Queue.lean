import Mathlib.Data.List.Perm.Subperm
import Bourse.Book.Level

/-!
# What a level's queue goes through

A price level is a FIFO queue with a cached total.  The book touches a queue in three
ways only: it appends an order (`Level.push`), removes the first order of an id
(`Level.remove?`), and lets a taker consume it from the front (`Level.consume`).  This
file says what each of them does to the orders of the queue and to their sizes, in terms
that the book-level invariants can use without opening the definitions again.

* `Level.WF` is the shape of a resting level: non-empty, its cached total the exact sum of
  its sizes, every order of positive size and priced at the level.
* `consume_sizeSum` and `consume_length` are the two conservation laws of the fill rule:
  what is taken plus what is left is what was there, in size and in number.
* `mem_consume_left` says that what is left is the queue's own orders, the first of them
  possibly reduced in size (`Order.Resized`), and `consume_ids` that ids keep their order.
* `remove?_eq_some` takes a successful removal apart into the orders before and after, and
  `remove?_eq_none_iff` says a removal fails exactly when no order has the id.
-/

namespace Bourse

/-- Two orders that differ at most in size: the same order, partly filled. -/
def Order.Resized (o o' : Order) : Prop := o = { o' with size := o.size }

namespace Order

@[simp] theorem resized_refl (o : Order) : o.Resized o := rfl

theorem Resized.price_eq {o o' : Order} (h : o.Resized o') : o.price = o'.price := by
  rw [h]

theorem Resized.timestamp_eq {o o' : Order} (h : o.Resized o') : o.timestamp = o'.timestamp := by
  rw [h]

theorem Resized.trans {o o' o'' : Order} (h : o.Resized o') (h' : o'.Resized o'') :
    o.Resized o'' := by
  unfold Resized at *
  rw [h, h']

end Order

namespace Level

/-! ## Sizes -/

@[simp] theorem sizeSum_nil : sizeSum [] = 0 := rfl

@[simp] theorem sizeSum_cons (o : Order) (os : List Order) :
    sizeSum (o :: os) = o.size.toNat + sizeSum os := by
  simp [sizeSum]

@[simp] theorem sizeSum_append (os os' : List Order) :
    sizeSum (os ++ os') = sizeSum os + sizeSum os' := by
  induction os with
  | nil => simp [sizeSum]
  | cons o os ih => simp [sizeSum, ih, Nat.add_assoc]

/-- A level as it rests in a ladder at price `p`. -/
structure WF (l : Level) (p : UInt64) : Prop where
  nonempty : l.queue ≠ []
  total_eq : l.total = sizeSum l.queue
  sized : ∀ o ∈ l.queue, 0 < o.size
  priced : ∀ o ∈ l.queue, o.price = p

theorem single_wf {o : Order} (hs : 0 < o.size) : (single o).WF o.price where
  nonempty := by simp [single]
  total_eq := by simp [single]
  sized := by simp [single, hs]
  priced := by simp [single]

theorem push_wf {l : Level} {p : UInt64} {o : Order} (hl : l.WF p) (hs : 0 < o.size)
    (hp : o.price = p) : (l.push o).WF p where
  nonempty := by simp
  total_eq := by simp [hl.total_eq]
  sized := by
    intro x hx
    rcases List.mem_append.1 hx with hx | hx
    · exact hl.sized x hx
    · rw [List.mem_singleton.1 hx]; exact hs
  priced := by
    intro x hx
    rcases List.mem_append.1 hx with hx | hx
    · exact hl.priced x hx
    · rw [List.mem_singleton.1 hx]; exact hp

/-! ## The fill rule -/

theorem consume_cons_whole {o : Order} {rest : List Order} {r : UInt64} (h0 : r ≠ 0)
    (h : o.size ≤ r) :
    consume (o :: rest) r =
      (o :: (consume rest (r - o.size)).1, (consume rest (r - o.size)).2.1,
        o.size.toNat + (consume rest (r - o.size)).2.2) := by
  simp [consume, h0, h]

theorem consume_cons_part {o : Order} {rest : List Order} {r : UInt64} (h0 : r ≠ 0)
    (h : ¬ o.size ≤ r) :
    consume (o :: rest) r = ([], { o with size := o.size - r } :: rest, r.toNat) := by
  simp [consume, h0, h]

/-- **Size is conserved.**  What is left of the queue and what was taken add up to the
queue's total. -/
theorem consume_sizeSum (os : List Order) (r : UInt64) :
    sizeSum (consume os r).2.1 + (consume os r).2.2 = sizeSum os := by
  induction os, r using consume.induct with
  | case1 r => simp [consume]
  | case2 o rest => simp [consume]
  | case3 o rest r h0 h _ _ _ _ ih =>
    rw [consume_cons_whole h0 h, sizeSum_cons]
    dsimp only
    omega
  | case4 o rest r h0 h =>
    rw [consume_cons_part h0 h]
    -- the front order only partly fits: it keeps `o.size - r`
    have hr : r ≤ o.size := UInt64.le_of_lt (UInt64.not_le.1 h)
    simp only [sizeSum_cons, UInt64.toNat_sub_of_le _ _ hr]
    have : r.toNat ≤ o.size.toNat := UInt64.le_iff_toNat_le.1 hr
    omega

/-- **Orders are conserved.**  Every order is either taken or left. -/
theorem consume_length (os : List Order) (r : UInt64) :
    (consume os r).1.length + (consume os r).2.1.length = os.length := by
  induction os, r using consume.induct with
  | case1 r => simp [consume]
  | case2 o rest => simp [consume]
  | case3 o rest r h0 h _ _ _ _ ih =>
    rw [consume_cons_whole h0 h]
    simp only [List.length_cons]
    omega
  | case4 o rest r h0 h => simp [consume_cons_part h0 h]

/-- The makers taken whole are orders of the queue. -/
theorem mem_of_mem_consume_taken {os : List Order} {r : UInt64} {o : Order}
    (h : o ∈ (consume os r).1) : o ∈ os := by
  induction os, r using consume.induct with
  | case1 r => simp [consume] at h
  | case2 o' rest => simp [consume] at h
  | case3 o' rest r h0 hle _ _ _ _ ih =>
    rw [consume_cons_whole h0 hle] at h
    rcases List.mem_cons.1 h with rfl | h
    · exact List.mem_cons_self
    · exact List.mem_cons_of_mem _ (ih h)
  | case4 o' rest r h0 hle => simp [consume_cons_part h0 hle] at h

/-- **What is left is the queue's own orders.**  Each order left behind is an order of the
queue, possibly with a smaller size; when every order of the queue has positive size, so
does every order left. -/
theorem mem_consume_left {os : List Order} {r : UInt64} {o : Order}
    (h : o ∈ (consume os r).2.1) :
    ∃ o' ∈ os, o.Resized o' ∧ (0 < o'.size → 0 < o.size) := by
  induction os, r using consume.induct with
  | case1 r => simp [consume] at h
  | case2 o' rest => exact ⟨o, by simpa [consume] using h, rfl, id⟩
  | case3 o' rest r h0 hle _ _ _ _ ih =>
    rw [consume_cons_whole h0 hle] at h
    obtain ⟨o'', hmem, hres⟩ := ih h
    exact ⟨o'', List.mem_cons_of_mem _ hmem, hres⟩
  | case4 o' rest r h0 hle =>
    rw [consume_cons_part h0 hle] at h
    rcases List.mem_cons.1 h with rfl | h
    · -- the reduced front order keeps `o'.size - r`, which is positive
      refine ⟨o', List.mem_cons_self, rfl, fun _ => ?_⟩
      have hlt : r < o'.size := UInt64.not_le.1 hle
      show 0 < o'.size - r
      simp only [UInt64.lt_iff_toNat_lt, UInt64.toNat_sub_of_le _ _ (UInt64.le_of_lt hlt),
        UInt64.toNat_zero] at hlt ⊢
      omega
    · exact ⟨o, List.mem_cons_of_mem _ h, rfl, id⟩

/-- Ids keep their queue order: the ids taken, then the ids left, are the queue's ids. -/
theorem consume_ids (os : List Order) (r : UInt64) :
    (consume os r).1.map (·.id) ++ (consume os r).2.1.map (·.id) = os.map (·.id) := by
  induction os, r using consume.induct with
  | case1 r => simp [consume]
  | case2 o rest => simp [consume]
  | case3 o rest r h0 h _ _ _ _ ih =>
    rw [consume_cons_whole h0 h]
    simp [ih]
  | case4 o rest r h0 h => simp [consume_cons_part h0 h]

/-! ## Removing an order by id -/

/-- A successful removal takes out the first order of the id and nothing else, and lowers
the total by its size. -/
theorem remove?_eq_some {l : Level} {id : UInt64} {o : Order} {l' : Level}
    (h : l.remove? id = some (o, l')) :
    ∃ pre post, l.queue = pre ++ o :: post ∧ (∀ x ∈ pre, x.id ≠ id) ∧ o.id = id ∧
      l' = { queue := pre ++ post, total := l.total - o.size.toNat } := by
  unfold remove? at h
  split at h
  · exact absurd h (by simp)
  · rename_i i hi
    split at h
    · exact absurd h (by simp)
    · rename_i o' ho'
      simp only [Option.some.injEq, Prod.mk.injEq] at h
      obtain ⟨rfl, rfl⟩ := h
      obtain ⟨hlt, hfound, hbefore⟩ := List.findIdx?_eq_some_iff_getElem.1 hi
      have hget : l.queue[i] = o' := (List.getElem?_eq_some_iff.1 ho').2
      refine ⟨l.queue.take i, l.queue.drop (i + 1), ?_, ?_, ?_, ?_⟩
      · rw [← hget, ← List.drop_eq_getElem_cons hlt, List.take_append_drop]
      · intro x hx
        obtain ⟨j, hj, rfl⟩ := List.getElem_of_mem hx
        have hji : j < i := by
          have := List.length_take_le' i l.queue
          simp only [List.length_take] at hj
          omega
        simpa [List.getElem_take] using hbefore j hji
      · simpa [hget] using hfound
      · simp [List.eraseIdx_eq_take_drop_succ]

/-- A removal fails exactly when no order of the queue has the id. -/
theorem remove?_eq_none_iff {l : Level} {id : UInt64} :
    l.remove? id = none ↔ ∀ x ∈ l.queue, x.id ≠ id := by
  unfold remove?
  split
  · rename_i hi
    simpa using List.findIdx?_eq_none_iff.1 hi
  · rename_i i hi
    obtain ⟨hlt, hfound, -⟩ := List.findIdx?_eq_some_iff_getElem.1 hi
    -- the index found is in range, so the removal succeeds
    rw [List.getElem?_eq_getElem hlt]
    simp only [reduceCtorEq, false_iff, not_forall, not_not]
    exact ⟨l.queue[i], List.getElem_mem hlt, by simpa using hfound⟩

/-- A removal leaves the level it touched well formed, unless it emptied it. -/
theorem WF.remove? {l l' : Level} {p id : UInt64} {o : Order} (hl : l.WF p)
    (h : l.remove? id = some (o, l')) (hne : l'.queue ≠ []) : l'.WF p := by
  obtain ⟨pre, post, hq, -, -, rfl⟩ := remove?_eq_some h
  have hmem : ∀ x ∈ pre ++ post, x ∈ l.queue := by
    intro x hx
    rw [hq]
    rcases List.mem_append.1 hx with hx | hx
    · exact List.mem_append_left _ hx
    · exact List.mem_append_right _ (List.mem_cons_of_mem _ hx)
  refine ⟨hne, ?_, fun x hx => hl.sized x (hmem x hx), fun x hx => hl.priced x (hmem x hx)⟩
  have htot := hl.total_eq
  rw [hq] at htot
  simp only [sizeSum_append, sizeSum_cons] at htot
  simp only [sizeSum_append]
  omega

end Level

end Bourse
