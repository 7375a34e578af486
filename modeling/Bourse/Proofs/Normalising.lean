import Bourse.Proofs.Capture
import Bourse.Proofs.SnapshotFile
import Bourse.Proofs.WordArithmetic

/-!
# Restoring normalises a snapshot

`Book.restore` accepts any snapshot: price maps with empty queues, orders of size 0, orders
priced away from their key, orders of any side or kind under any map, any history.  It files
each order of positive size under its key, re-priced to that key, and so a level exists only
where some order was filed.  This file says what comes out, as a normal form of the snapshot
computed on its own (`Snapshot.norm`), and that the normal form is stable.

* `normQueue`, `normMap`, `Snapshot.norm`: a queue loses its orders of size 0 and the rest are
  priced at the key, a map loses the keys left without orders, the history stays;
* `fileAt_last_norm`, `fileAt_norm`, `foldl_fileAt_norm`, `ofEntries_eq`: filing a keyed map
  in ascending order builds exactly the levels of its normal form, each with the total of its
  queue;
* `normMap_eq_self`, `normal_normMap`, `normMap_normMap`: a normal map is its own normal form,
  and every normal form is normal, so normalising twice is normalising once;
* `Snapshot.restoreOverflows_eq_false_iff`: the program keeps its totals and counts in words
  and stops at the first step that leaves one, so a restore goes through exactly when every
  queue's sizes sum to a word, fewer than `2 ^ 64` orders are rebuilt and no id is the last
  word; `restore_stops_past_word` shows two snapshots on which it stops;
* `restore_normalises`: for every keyed snapshot, when the restore goes through, the capture
  of its restore is its normal form, the resting count is the number of orders there, the book
  is well formed, and restoring the capture again reaches the same book.
-/

namespace Bourse

namespace Snapshot

/-- A queue as a restore files it under the key `p`: orders of size 0 dropped, the others
priced at `p`, in queue order. -/
def normQueue (p : UInt64) (os : List Order) : List Order :=
  (os.filter fun o => o.size != 0).map fun o => { o with price := p }

/-- A price map as a restore rebuilds it: every queue normalised, in key order, and the keys
left without orders dropped. -/
def normMap (m : List (UInt64 × List Order)) : List (UInt64 × List Order) :=
  (m.map fun e => (e.1, normQueue e.1 e.2)).filter fun e => !e.2.isEmpty

/-- The normal form of a snapshot: its four price maps normalised, its history and next id
kept. -/
def norm (s : Snapshot) : Snapshot :=
  { asks := normMap s.asks, bids := normMap s.bids, stopAsks := normMap s.stopAsks,
    stopBids := normMap s.stopBids, history := s.history, nextId := s.nextId }

/-- The orders a snapshot files in its four price maps, map by map. -/
def filed (s : Snapshot) : List Order := (s.asks ++ s.bids ++ s.stopAsks ++ s.stopBids).flatMap (·.2)

/-- A price map in normal form: every queue non-empty, of orders of positive size priced at
their key. -/
def Normal (m : List (UInt64 × List Order)) : Prop :=
  ∀ e ∈ m, e.2 ≠ [] ∧ ∀ o ∈ e.2, o.size ≠ 0 ∧ o.price = e.1

@[simp] theorem normQueue_nil (p : UInt64) : normQueue p [] = [] := rfl

theorem normQueue_cons_zero (p : UInt64) {o : Order} (os : List Order) (h : o.size = 0) :
    normQueue p (o :: os) = normQueue p os := by
  simp [normQueue, h]

theorem normQueue_cons_pos (p : UInt64) {o : Order} (os : List Order) (h : o.size ≠ 0) :
    normQueue p (o :: os) = { o with price := p } :: normQueue p os := by
  simp [normQueue, h]

theorem normMap_cons (p : UInt64) (os : List Order) (m : List (UInt64 × List Order)) :
    normMap ((p, os) :: m) = normMap [(p, os)] ++ normMap m := by
  simp only [normMap, List.map_cons, List.map_nil, List.filter_cons, List.filter_nil]
  split <;> rfl

/-! ## Normal forms are stable -/

/-- A queue of orders of positive size priced at the key is its own normal form. -/
theorem normQueue_eq_self {p : UInt64} {os : List Order}
    (h : ∀ o ∈ os, o.size ≠ 0 ∧ o.price = p) : normQueue p os = os := by
  induction os with
  | nil => rfl
  | cons o os ih =>
    obtain ⟨hs, hp⟩ := h o List.mem_cons_self
    rw [normQueue_cons_pos p os hs, ih fun x hx => h x (List.mem_cons_of_mem _ hx), ← hp]

/-- **A normal map is its own normal form.** -/
theorem normMap_eq_self {m : List (UInt64 × List Order)} (h : Normal m) : normMap m = m := by
  have hmap : (m.map fun e => (e.1, normQueue e.1 e.2)) = m := by
    conv_rhs => rw [← List.map_id m]
    exact List.map_congr_left fun e he => by rw [normQueue_eq_self (h e he).2]; rfl
  rw [normMap, hmap]
  exact List.filter_eq_self.2 fun e he => by simpa using (h e he).1

/-- **Every normal form is normal.** -/
theorem normal_normMap (m : List (UInt64 × List Order)) : Normal (normMap m) := by
  intro e he
  obtain ⟨he, hne⟩ := List.mem_filter.1 he
  obtain ⟨⟨p, os⟩, -, rfl⟩ := List.mem_map.1 he
  refine ⟨by simpa using hne, fun o ho => ?_⟩
  -- a filed order passed the size test and took the key as its price
  obtain ⟨o', ho', rfl⟩ := List.mem_map.1 ho
  exact ⟨by simpa using (List.mem_filter.1 ho').2, rfl⟩

theorem normMap_normMap (m : List (UInt64 × List Order)) : normMap (normMap m) = normMap m :=
  normMap_eq_self (normal_normMap m)

/-- **Normalising twice is normalising once.** -/
theorem norm_norm (s : Snapshot) : s.norm.norm = s.norm := by
  simp [Snapshot.norm, normMap_normMap]

end Snapshot

namespace Ladder

/-- The level a normalised queue rebuilds, with the total of its sizes. -/
def levelOf (e : UInt64 × List Order) : UInt64 × Level :=
  (e.1, { queue := e.2, total := Level.sizeSum e.2 })

/-! ## Filing a map in ascending key order -/

/-- Filing orders at the key of the last level, above every other level, adds the normal form
of the queue to that level. -/
theorem fileAt_last_norm {p : UInt64} {ls : List (UInt64 × Level)} (h : ∀ e ∈ ls, e.1 < p)
    (os : List Order) (l : Level) :
    fileAt ⟨ls ++ [(p, l)]⟩ p os =
      ⟨ls ++ [(p, { queue := l.queue ++ Snapshot.normQueue p os,
                    total := l.total + Level.sizeSum (Snapshot.normQueue p os) })]⟩ := by
  induction os generalizing l with
  | nil => simp [fileAt]
  | cons o os ih =>
    rw [fileAt_cons]
    by_cases hs : o.size = 0
    · rw [if_pos hs, ih, Snapshot.normQueue_cons_zero p os hs]
    · -- the order joins the last level, priced at its key
      have hins : (⟨ls ++ [(p, l)]⟩ : Ladder).insert { o with price := p } =
          ⟨ls ++ [(p, l.push { o with price := p })]⟩ := by
        simp only [insert, insertAt_last h]
      rw [if_neg hs, hins, ih, Snapshot.normQueue_cons_pos p os hs]
      simp [Nat.add_assoc]

/-- Filing orders at a key above every level opens a last level exactly when some order has a
positive size, and fills it with the normal form of the queue. -/
theorem fileAt_norm {p : UInt64} {ls : List (UInt64 × Level)} (h : ∀ e ∈ ls, e.1 < p)
    (os : List Order) : fileAt ⟨ls⟩ p os = ⟨ls ++ (Snapshot.normMap [(p, os)]).map levelOf⟩ := by
  induction os with
  | nil => simp [fileAt, Snapshot.normMap]
  | cons o os ih =>
    rw [fileAt_cons]
    by_cases hs : o.size = 0
    · rw [if_pos hs, ih]
      simp [Snapshot.normMap, Snapshot.normQueue_cons_zero p os hs]
    · -- the first order of positive size opens the level, the rest join it
      have hins : (⟨ls⟩ : Ladder).insert { o with price := p } =
          ⟨ls ++ [(p, Level.single { o with price := p })]⟩ := by
        simp only [insert, insertAt_of_lt h]
      rw [if_neg hs, hins, fileAt_last_norm h]
      simp [Snapshot.normMap, Snapshot.normQueue_cons_pos p os hs, levelOf, Level.single]

/-- Filing a map whose keys ascend, above every level already there, appends the levels of its
normal form. -/
theorem foldl_fileAt_norm {m : List (UInt64 × List Order)} (hm : (m.map (·.1)).Pairwise (· < ·)) :
    ∀ acc : List (UInt64 × Level), (∀ a ∈ acc, ∀ e ∈ m, a.1 < e.1) →
      m.foldl (fun (ld : Ladder) e => ld.fileAt e.1 e.2) ⟨acc⟩ = ⟨acc ++ (Snapshot.normMap m).map levelOf⟩ := by
  induction m with
  | nil => intro acc _; simp [Snapshot.normMap]
  | cons e m ih =>
    intro acc hacc
    obtain ⟨p, os⟩ := e
    rw [List.map_cons, List.pairwise_cons] at hm
    have hfile := fileAt_norm (fun a ha => hacc a ha (p, os) List.mem_cons_self) os
    -- what the first key filed lies below every later key
    have hacc' : ∀ a ∈ acc ++ (Snapshot.normMap [(p, os)]).map levelOf, ∀ e ∈ m, a.1 < e.1 := by
      intro a ha e he
      rcases List.mem_append.1 ha with ha | ha
      · exact hacc a ha e (List.mem_cons_of_mem _ he)
      · obtain ⟨e', he', rfl⟩ := List.mem_map.1 ha
        have hkey : e'.1 = p := by
          obtain ⟨⟨q, qs⟩, hq, rfl⟩ := List.mem_map.1 (List.mem_filter.1 he').1
          exact (Prod.mk.inj (List.mem_singleton.1 hq)).1
        rw [show (levelOf e').1 = e'.1 from rfl, hkey]
        exact hm.1 e.1 (List.mem_map_of_mem he)
    rw [List.foldl_cons, hfile, ih hm.2 _ hacc', Snapshot.normMap_cons p os m]
    simp

/-- **A keyed map is rebuilt as its normal form**: one level per key left with orders, holding
the normalised queue and its total. -/
theorem ofEntries_eq {m : List (UInt64 × List Order)} (hm : (m.map (·.1)).Pairwise (· < ·)) :
    ofEntries m = ⟨(Snapshot.normMap m).map levelOf⟩ := by
  simpa [ofEntries, empty] using foldl_fileAt_norm hm [] (by simp)

theorem entries_ofEntries {m : List (UInt64 × List Order)} (hm : (m.map (·.1)).Pairwise (· < ·)) :
    (ofEntries m).entries = Snapshot.normMap m := by
  rw [ofEntries_eq hm]
  simp [entries, levelOf, Function.comp_def]

theorem count_ofEntries {m : List (UInt64 × List Order)} (hm : (m.map (·.1)).Pairwise (· < ·)) :
    (ofEntries m).count = ((Snapshot.normMap m).flatMap (·.2)).length := by
  rw [ofEntries_eq hm]
  simp [count, orders, levelOf, List.flatMap_map]

end Ladder

namespace Snapshot

/-- **When a restore stops.**  A restore of a keyed snapshot stays in the word at every step
exactly when the sizes of every queue sum to a word, the orders it rebuilds are fewer than
`2 ^ 64`, and no id is the last word; otherwise the program stops. -/
theorem restoreOverflows_eq_false_iff {s : Snapshot} (hs : s.Keyed) :
    s.restoreOverflows = false ↔
      (∀ m ∈ [s.asks, s.bids, s.stopAsks, s.stopBids], ∀ e ∈ m, Level.sizeSum e.2 < UInt64.size) ∧
        (Book.restore s).resting < UInt64.size ∧
        ∀ o ∈ s.allOrders, o.id.toNat + 1 < UInt64.size := by
  have hsteps : s.restoreOverflows = false ↔ ∀ w ∈ s.restoreSteps, w.Exact := by
    simp [restoreOverflows]
  -- each map is rebuilt from an empty ladder, where every key is new
  have hrebuild : (∀ m ∈ [s.asks, s.bids, s.stopAsks, s.stopBids],
      ∀ w ∈ Ladder.empty.rebuildSteps m, w.Exact) ↔
      ∀ m ∈ [s.asks, s.bids, s.stopAsks, s.stopBids], ∀ e ∈ m, Level.sizeSum e.2 < UInt64.size :=
    forall₂_congr fun m hm => Ladder.rebuildSteps_exact_iff Ladder.empty_wf (hs m hm)
      fun _ _ => rfl
  rw [hsteps, ← hrebuild, ← countSteps_restore_exact_iff, ← floorSteps_exact_iff]
  simp only [restoreSteps, List.mem_append, or_imp, forall_and, List.forall_mem_flatMap]
  tauto

end Snapshot

namespace Book

/-- **Restoring normalises, and the normal form is stable.**  For every snapshot whose price
maps are keyed in ascending order (as the maps of a snapshot are), empty queues, orders of size
0, orders priced away from their key and orders of any side or kind in any map included, the
restore stays in the word, and the program goes on, exactly when the sizes of every queue sum
to a word, the orders of positive size are fewer than `2 ^ 64` and no id is the last word.
The restored book captured with any next id `n` is the snapshot's normal form with next id
`n`: in each map the keys in order, every order of size 0 gone, every other order priced at its
key in queue order, the keys left empty gone, the history verbatim.  The restored book counts
exactly the orders of the normal form as resting and satisfies the representation invariant.
Normalising twice is normalising once, and restoring the capture of a restored book gives that
book again. -/
theorem restore_normalises {s : Snapshot} (hs : s.Keyed) (n : UInt64) :
    (s.restoreOverflows = false ↔
      (∀ m ∈ [s.asks, s.bids, s.stopAsks, s.stopBids], ∀ e ∈ m,
          Level.sizeSum e.2 < UInt64.size) ∧
        s.norm.filed.length < UInt64.size ∧ ∀ o ∈ s.allOrders, o.id.toNat + 1 < UInt64.size) ∧
    (restore s).capture n = { s.norm with nextId := n } ∧
    (restore s).resting = s.norm.filed.length ∧ (restore s).WF ∧
    s.norm.norm = s.norm ∧ restore ((restore s).capture n) = restore s := by
  have hasks := hs s.asks (by simp)
  have hbids := hs s.bids (by simp)
  have hstopAsks := hs s.stopAsks (by simp)
  have hstopBids := hs s.stopBids (by simp)
  have hresting : (restore s).resting = s.norm.filed.length := by
    simp only [restore, Ladder.count_ofEntries hasks, Ladder.count_ofEntries hbids,
      Ladder.count_ofEntries hstopAsks, Ladder.count_ofEntries hstopBids, Snapshot.filed,
      Snapshot.norm, List.flatMap_append, List.length_append]
  refine ⟨?_, ?_, hresting, restore_wf s, Snapshot.norm_norm s,
    restore_capture (restore_wf s) n⟩
  · rw [Snapshot.restoreOverflows_eq_false_iff hs, hresting]
  · simp only [capture, restore, Ladder.entries_ofEntries hasks, Ladder.entries_ofEntries hbids,
      Ladder.entries_ofEntries hstopAsks, Ladder.entries_ofEntries hstopBids, Snapshot.norm]

/-- A snapshot with an empty queue at 99, an order of size 0, an order priced at 7 under the
key 101 and a stop bid filed among the asks. -/
def untidySnapshot : Snapshot :=
  ⟨[(99, []), (101, [{ Order.limit 1 .ask 0 101 "a" with timestamp := 3 },
    Order.limit 2 .ask 4 7 "b", Order.stop 3 .bid 2 101 "c"])], [], [], [], [], 5⟩

/-- The untidy snapshot restores without leaving the word, and captures as its normal form. -/
theorem restore_normalises_untidy :
    untidySnapshot.Keyed ∧ untidySnapshot.restoreOverflows = false ∧
      (restore untidySnapshot).capture 9 = { untidySnapshot.norm with nextId := 9 } := by
  have hs : untidySnapshot.Keyed := by decide
  have h := restore_normalises hs 9
  exact ⟨hs, h.1.2 ⟨by decide, by decide, by decide⟩, h.2.1⟩

/-- Two asks of `2 ^ 63` at the price 100. -/
def halfWordAsks : Snapshot :=
  ⟨[(100, [Order.limit 1 .ask 9223372036854775808 100 "a",
    Order.limit 2 .ask 9223372036854775808 100 "b"])], [], [], [], [], 3⟩

/-- A bid of the last id. -/
def lastIdBid : Snapshot :=
  ⟨[], [(90, [Order.limit 18446744073709551615 .bid 1 90 "a"])], [], [], [], 0⟩

/-- **A restore can stop.**  Restoring two asks of `2 ^ 63` at one price adds the second size
onto a total of `2 ^ 63` and leaves the word: the exact total of the level is `2 ^ 64`.
Restoring an order of the last id leaves the word at the floor. -/
theorem restore_stops_past_word :
    halfWordAsks.Keyed ∧ halfWordAsks.restoreOverflows = true ∧
      (restore halfWordAsks).asks.levels.map (·.2.total) = [UInt64.size] ∧
      lastIdBid.Keyed ∧ lastIdBid.restoreOverflows = true := by
  decide

end Book

end Bourse
