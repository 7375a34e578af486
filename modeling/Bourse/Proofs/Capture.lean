import Bourse.Proofs.Freshness

/-!
# Restoring a captured book

`Book.capture` writes a book out as a snapshot and `Book.restore` rebuilds a book from one.
The rebuild normalises what it reads: it skips orders of size 0, re-prices every order to
the key it is filed under, and recounts the totals and the resting count.  On a well-formed
book there is nothing to normalise, so restoring its capture gives the book back.

* `insertAt_of_lt` and `insertAt_last`: filing above every level of a ladder opens a new
  last level, and filing at the last level joins its queue;
* `fileAt_last`: filing a queue of orders of positive size, priced at a key above every
  level, rebuilds that level at the end;
* `ofEntries_entries`: a well-formed ladder rebuilt from its own price map is itself;
* `restore_capture`: a well-formed book restored from its capture is itself;
* `floor_capture`: the floor of a capture is the recorded next id raised past every id of
  the book;
* `capture_restore_eq` states both for every well-formed book.
-/

namespace Bourse

/-- A well-formed level is its queue with the queue's total. -/
theorem Level.WF.eta {l : Level} {p : UInt64} (h : l.WF p) :
    l = { queue := l.queue, total := Level.sizeSum l.queue } := by
  rw [← h.total_eq]

namespace Ladder

/-- Filing at a price above every level opens a new last level. -/
theorem insertAt_of_lt {p : UInt64} {o : Order} {ls : List (UInt64 × Level)}
    (h : ∀ e ∈ ls, e.1 < p) : insertAt p o ls = ls ++ [(p, Level.single o)] := by
  induction ls with
  | nil => rfl
  | cons e ls ih =>
    obtain ⟨q, l⟩ := e
    have hq : q < p := h (q, l) List.mem_cons_self
    have hnlt : ¬ p < q := fun hpq => UInt64.lt_irrefl p (UInt64.lt_trans hpq hq)
    have hne : p ≠ q := fun hpq => UInt64.lt_irrefl q (hpq ▸ hq)
    simp only [insertAt, hnlt, hne, if_false, List.cons_append,
      ih fun e he => h e (List.mem_cons_of_mem _ he)]

/-- Filing at the price of the last level, above every other level, joins its queue. -/
theorem insertAt_last {p : UInt64} {o : Order} {l : Level} {ls : List (UInt64 × Level)}
    (h : ∀ e ∈ ls, e.1 < p) : insertAt p o (ls ++ [(p, l)]) = ls ++ [(p, l.push o)] := by
  induction ls with
  | nil => simp [insertAt]
  | cons e ls ih =>
    obtain ⟨q, l'⟩ := e
    have hq : q < p := h (q, l') List.mem_cons_self
    have hnlt : ¬ p < q := fun hpq => UInt64.lt_irrefl p (UInt64.lt_trans hpq hq)
    have hne : p ≠ q := fun hpq => UInt64.lt_irrefl q (hpq ▸ hq)
    simp only [List.cons_append, insertAt, hnlt, hne, if_false,
      ih fun e he => h e (List.mem_cons_of_mem _ he)]

/-- Filing orders of positive size, priced at the last level's key, joins them to its queue in
order and adds their sizes to its total. -/
theorem fileAt_last {p : UInt64} {ls : List (UInt64 × Level)} (h : ∀ e ∈ ls, e.1 < p)
    {os : List Order} (hos : ∀ o ∈ os, 0 < o.size ∧ o.price = p) (l : Level) :
    fileAt ⟨ls ++ [(p, l)]⟩ p os =
      ⟨ls ++ [(p, { queue := l.queue ++ os, total := l.total + Level.sizeSum os })]⟩ := by
  induction os generalizing l with
  | nil => simp [fileAt]
  | cons o os ih =>
    obtain ⟨hpos, hprice⟩ := hos o List.mem_cons_self
    -- the order is already priced at the key, so filing it is a plain insert
    have hre : { o with price := p } = o := by rw [← hprice]
    have hstep : (⟨ls ++ [(p, l)]⟩ : Ladder).insert { o with price := p } =
        ⟨ls ++ [(p, l.push o)]⟩ := by
      rw [hre]
      simp only [insert, hprice, insertAt_last h]
    rw [fileAt_cons, if_neg (UInt64.pos_iff_ne_zero.1 hpos), hstep,
      ih (fun o' ho' => hos o' (List.mem_cons_of_mem _ ho')) (l.push o)]
    simp [Nat.add_assoc]

/-- Filing a non-empty queue of orders of positive size, priced at a key above every level,
opens that level at the end with the queue and its total. -/
theorem fileAt_new {p : UInt64} {ls : List (UInt64 × Level)} (h : ∀ e ∈ ls, e.1 < p)
    {o : Order} {os : List Order} (hos : ∀ x ∈ o :: os, 0 < x.size ∧ x.price = p) :
    fileAt ⟨ls⟩ p (o :: os) =
      ⟨ls ++ [(p, { queue := o :: os, total := Level.sizeSum (o :: os) })]⟩ := by
  obtain ⟨hpos, hprice⟩ := hos o List.mem_cons_self
  have hfirst : (⟨ls⟩ : Ladder).insert { o with price := p } = ⟨ls ++ [(p, Level.single o)]⟩ := by
    have hre : { o with price := p } = o := by rw [← hprice]
    rw [hre]
    simp only [insert, hprice, insertAt_of_lt h]
  have hrest := fileAt_last h (fun x hx => hos x (List.mem_cons_of_mem _ hx)) (Level.single o)
  rw [fileAt_cons, if_neg (UInt64.pos_iff_ne_zero.1 hpos), hfirst, hrest]
  simp [Level.single]

/-- Filing the queues of well-formed levels in ascending price, above every level already
there, appends those very levels. -/
theorem foldl_fileAt_levels {ls : List (UInt64 × Level)}
    (hasc : ls.Pairwise (fun a b => a.1 < b.1)) (hwf : ∀ e ∈ ls, e.2.WF e.1) :
    ∀ acc : List (UInt64 × Level), (∀ a ∈ acc, ∀ e ∈ ls, a.1 < e.1) →
      (ls.map fun e => (e.1, e.2.queue)).foldl (fun (acc : Ladder) e => acc.fileAt e.1 e.2)
        ⟨acc⟩ = ⟨acc ++ ls⟩ := by
  induction ls with
  | nil => intro acc _; simp
  | cons e ls ih =>
    intro acc hacc
    obtain ⟨p, l⟩ := e
    have hl : l.WF p := hwf (p, l) List.mem_cons_self
    -- the level's queue is non-empty, and filing it rebuilds the level itself
    obtain ⟨o, os, hq⟩ := List.exists_cons_of_ne_nil hl.nonempty
    have hfile : fileAt ⟨acc⟩ p l.queue = ⟨acc ++ [(p, l)]⟩ := by
      have hos : ∀ x ∈ o :: os, 0 < x.size ∧ x.price = p := by
        rw [← hq]
        exact fun x hx => ⟨hl.sized x hx, hl.priced x hx⟩
      rw [hq, fileAt_new (fun a ha => hacc a ha (p, l) List.mem_cons_self) hos, ← hq, ← hl.eta]
    have hacc' : ∀ a ∈ acc ++ [(p, l)], ∀ e ∈ ls, a.1 < e.1 := by
      intro a ha e he
      rcases List.mem_append.1 ha with ha | ha
      · exact hacc a ha e (List.mem_cons_of_mem _ he)
      · rw [List.mem_singleton.1 ha]
        exact List.rel_of_pairwise_cons hasc he
    rw [List.map_cons, List.foldl_cons, hfile,
      ih hasc.of_cons (fun e he => hwf e (List.mem_cons_of_mem _ he)) _ hacc']
    simp

/-- **A ladder rebuilt from its own price map is itself**, when it is well formed. -/
theorem ofEntries_entries {ld : Ladder} (h : ld.WF) : ofEntries ld.entries = ld := by
  have := foldl_fileAt_levels h.ascending h.level_wf [] (by simp)
  simpa [ofEntries, entries, empty] using this

end Ladder

namespace Book

/-- **A well-formed book restored from its capture is itself**: the same four ladders level by
level, the same history and the same resting count. -/
theorem restore_capture {b : Book} (h : b.WF) (n : UInt64) : restore (b.capture n) = b := by
  have hr := h.resting_eq
  rw [length_restingOrders] at hr
  simp only [restore, capture, Ladder.ofEntries_entries h.asks, Ladder.ofEntries_entries h.bids,
    Ladder.ofEntries_entries h.stopAsks, Ladder.ofEntries_entries h.stopBids, ← hr]

/-- A capture holds the book's resting orders, ladder by ladder, and then its history. -/
theorem allOrders_capture (b : Book) (n : UInt64) :
    (b.capture n).allOrders = b.restingOrders ++ b.history := by
  simp [Snapshot.allOrders, capture, Ladder.entries, Ladder.orders, restingOrders_eq,
    List.flatMap_map]

/-- Raising a word past every id of a list, as a number: the larger of the word and one past
the largest id, when no id is the last word. -/
theorem foldl_raise_toNat {xs : List UInt64} (hxs : ∀ x ∈ xs, x.toNat + 1 < UInt64.size)
    (m : UInt64) :
    (xs.foldl (fun m x => max m (x + 1)) m).toNat =
      max m.toNat ((xs.map (·.toNat + 1)).foldr max 0) := by
  induction xs generalizing m with
  | nil => simp
  | cons x xs ih =>
    have hx : (x + 1).toNat = x.toNat + 1 := by
      rw [UInt64.toNat_add, UInt64.toNat_one, Nat.mod_eq_of_lt (hxs x List.mem_cons_self)]
    rw [List.foldl_cons, ih (fun y hy => hxs y (List.mem_cons_of_mem _ hy)), UInt64.toNat_max, hx]
    simp only [List.map_cons, List.foldr_cons]
    omega

/-- **The floor of a capture** is the recorded next id raised past every id of the book, when
no id is the last word. -/
theorem floor_capture (b : Book) (n : UInt64) (hids : ∀ x ∈ b.ids, x.toNat + 1 < UInt64.size) :
    (b.capture n).floor = b.ids.foldl (fun m x => max m (x + 1)) n := by
  have hall : (b.capture n).allOrders.map (·.id) = b.ids := by
    simp [allOrders_capture, ids, restingIds]
  have hs : ∀ o ∈ (b.capture n).allOrders, o.id.toNat + 1 < UInt64.size :=
    fun o ho => hids o.id (hall ▸ List.mem_map_of_mem ho)
  apply UInt64.toNat_inj.1
  rw [Snapshot.floor_toNat hs, foldl_raise_toNat hids, Snapshot.pastIds, ← hall, List.map_map]
  exact Nat.max_comm _ _

/-- **Capture then restore is the identity on well-formed books.**  For every book that
satisfies the representation invariant and every recorded next id `n`, restoring the capture
gives back the very same book: the four ladders level by level (keys, queues in order,
totals), the history and the resting count, so every later query and operation answers the
same on both.  The floor the restore hands on is `n` raised past every id of the book: the
larger of `n` and one past the largest id, or `n` for a book without orders, provided no id
of the book is the last word. -/
theorem capture_restore_eq {b : Book} (hwf : b.WF) (n : UInt64)
    (hids : ∀ x ∈ b.ids, x.toNat + 1 < UInt64.size) :
    restore (b.capture n) = b ∧ (b.capture n).floor = b.ids.foldl (fun m x => max m (x + 1)) n :=
  ⟨restore_capture hwf n, floor_capture b n hids⟩

/-- One resting bid, of id 3. -/
def bidThreeBook : Book := empty.insertLimit (Order.limit 3 .bid 5 100 "alice")

/-- Captured with next id 1, the book restores to itself with floor 4. -/
theorem capture_restore_eq_one_bid :
    bidThreeBook.WF ∧ restore (bidThreeBook.capture 1) = bidThreeBook ∧
      (bidThreeBook.capture 1).floor = 4 := by
  have hwf : bidThreeBook.WF := insertLimit_wf empty_wf (by decide)
  have hids : ∀ x ∈ bidThreeBook.ids, x.toNat + 1 < UInt64.size := by
    have hone : bidThreeBook.ids = [3] := by decide
    intro x hx
    rw [hone, List.mem_singleton] at hx
    rw [hx]
    decide
  obtain ⟨hrestore, hfloor⟩ := capture_restore_eq hwf 1 hids
  exact ⟨hwf, hrestore, by rw [hfloor]; decide⟩

end Book

end Bourse
