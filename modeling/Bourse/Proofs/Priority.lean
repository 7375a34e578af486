import Mathlib.Data.List.Perm.Subperm
import Bourse.Proofs.Capture
import Bourse.Proofs.Cascade
import Bourse.Proofs.Lifecycle
import Bourse.Proofs.Sorting

/-!
# Time priority

Within a price, orders trade in the order they arrived: a level is a queue that fills take
from the front, and ids are handed out in sequence, so arrival order is ascending id.  This
file proves that every queue of the book stays in that order through every insert, fill,
release, cancel and reload, and what that means for a fill.

* `Level.consume_priority`: on a queue in arrival order (`InArrivalOrder`), a fill takes a
  prefix of the queue, every maker it takes is older than every order it leaves, and the one
  order it can leave partly filled is the oldest order left;
* `Book.TimePriority`, every level of the four ladders in arrival order, is kept by the insert
  of an order newer than all resting ones, by fills, releases and cancels;
* `Book.release_inArrivalOrder`: a released group of stops is in arrival order when the
  resting ids are distinct; `Book.MarketLoop.orderly` carries this through every state of a
  stop cascade;
* `Exchange.Sequenced` are the states of the runs that take ids without wrapping and reload
  only snapshots of such states; `Sequenced.orderly` is their invariant, and `time_priority`
  states the result.
-/

namespace Bourse

/-- Orders in arrival order: their ids strictly increase, as ids are handed out in
sequence. -/
def InArrivalOrder (os : List Order) : Prop := os.Pairwise (fun a b => a.id < b.id)

instance (os : List Order) : Decidable (InArrivalOrder os) :=
  inferInstanceAs (Decidable (os.Pairwise _))

theorem Order.Resized.id_eq {o o' : Order} (h : o.Resized o') : o.id = o'.id := by
  rw [h]

/-- Orders sorted by id are in ascending id, equal ids side by side. -/
theorem byId_sorted (os : List Order) : (byId os).Pairwise (fun a b => a.id ≤ b.id) :=
  (sortedByKey_mergeSort (·.id) os).sorted

namespace Level

/-- **A fill takes the oldest orders first.**  On a queue in arrival order, a fill takes a
prefix of the queue; every maker it takes is older than every order it leaves; what it
leaves is in arrival order, and all of it but the first order is untouched, so the one order
a fill can leave partly filled is the oldest order left. -/
theorem consume_priority {q : List Order} (hq : InArrivalOrder q) (r : UInt64) :
    (consume q r).1 <+: q ∧
    (∀ m ∈ (consume q r).1, ∀ x ∈ (consume q r).2.1, m.id < x.id) ∧
    InArrivalOrder (consume q r).2.1 ∧ (consume q r).2.1.tail <:+ q := by
  induction q, r using consume.induct with
  | case1 r => simp [consume, InArrivalOrder]
  | case2 o rest =>
    simp only [consume]
    exact ⟨List.nil_prefix, by simp, hq, List.suffix_cons o rest⟩
  | case3 o rest r h0 hle _ _ _ _ ih =>
    rw [consume_cons_whole h0 hle]
    obtain ⟨hpre, hold, hleft, htail⟩ := ih (List.Pairwise.of_cons hq)
    refine ⟨(List.prefix_cons_inj o).2 hpre, ?_, hleft, htail.trans (List.suffix_cons o rest)⟩
    intro m hm x hx
    rcases List.mem_cons.1 hm with rfl | hm
    · -- an order left is a later order of the queue, possibly resized
      obtain ⟨x', hx', hres, -⟩ := mem_consume_left hx
      rw [hres.id_eq]
      exact List.rel_of_pairwise_cons hq hx'
    · exact hold m hm x hx
  | case4 o rest r h0 hle =>
    rw [consume_cons_part h0 hle]
    refine ⟨List.nil_prefix, by simp, ?_, List.suffix_cons o rest⟩
    exact List.Pairwise.cons (fun x hx => List.rel_of_pairwise_cons hq hx)
      (List.Pairwise.of_cons hq)

end Level

namespace Ladder

/-- Every level of the ladder queues its orders in arrival order. -/
def TimePriority (ld : Ladder) : Prop := ∀ e ∈ ld.levels, InArrivalOrder e.2.queue

theorem timePriority_empty : empty.TimePriority := by
  simp [TimePriority]

/-- A ladder whose levels are among those of one in time priority is in time priority. -/
theorem TimePriority.of_subset {ld ld' : Ladder} (h : ld.TimePriority)
    (hsub : ∀ e ∈ ld'.levels, e ∈ ld.levels) : ld'.TimePriority :=
  fun e he => h e (hsub e he)

/-- Each level after filing an order is an old one, the order's own new level, or an old one
with the order at the back. -/
theorem mem_insertAt_level {price : UInt64} {o : Order} {ls : List (UInt64 × Level)}
    {e : UInt64 × Level} (h : e ∈ insertAt price o ls) :
    e ∈ ls ∨ e.2 = Level.single o ∨ ∃ l, (e.1, l) ∈ ls ∧ e.2 = l.push o := by
  induction ls with
  | nil =>
    rw [List.mem_singleton.1 h]
    exact Or.inr (Or.inl rfl)
  | cons hd tl ih =>
    obtain ⟨p, l⟩ := hd
    by_cases hlt : price < p
    · rw [show insertAt price o ((p, l) :: tl) = (price, Level.single o) :: (p, l) :: tl by
        simp [insertAt, hlt]] at h
      rcases List.mem_cons.1 h with rfl | h
      · exact Or.inr (Or.inl rfl)
      · exact Or.inl h
    · by_cases heq : price = p
      · subst heq
        rw [show insertAt price o ((price, l) :: tl) = (price, l.push o) :: tl by
          simp [insertAt]] at h
        rcases List.mem_cons.1 h with rfl | h
        · exact Or.inr (Or.inr ⟨l, List.mem_cons_self, rfl⟩)
        · exact Or.inl (List.mem_cons_of_mem _ h)
      · rw [show insertAt price o ((p, l) :: tl) = (p, l) :: insertAt price o tl by
          simp [insertAt, hlt, heq]] at h
        rcases List.mem_cons.1 h with rfl | h
        · exact Or.inl List.mem_cons_self
        · rcases ih h with h | h | ⟨l', hl', he⟩
          · exact Or.inl (List.mem_cons_of_mem _ h)
          · exact Or.inr (Or.inl h)
          · exact Or.inr (Or.inr ⟨l', List.mem_cons_of_mem _ hl', he⟩)

/-- Filing an order newer than every order of the ladder keeps it in time priority: the
order goes to the back of its level, or opens a level of its own. -/
theorem TimePriority.insert {ld : Ladder} (h : ld.TimePriority) {o : Order}
    (hnew : ∀ x ∈ ld.orders, x.id < o.id) : (ld.insert o).TimePriority := by
  intro e he
  rcases mem_insertAt_level he with he | he | ⟨l, hl, he⟩
  · exact h e he
  · rw [he]
    exact List.pairwise_singleton _ _
  · rw [he, Level.push_queue]
    refine List.pairwise_append.2 ⟨h _ hl, List.pairwise_singleton _ _, ?_⟩
    intro x hx y hy
    rw [List.mem_singleton.1 hy]
    exact hnew x (mem_orders.2 ⟨_, hl, hx⟩)

/-- A fill keeps a well-formed ladder in time priority: the level it touched keeps what the
fill left of its queue, or goes. -/
theorem TimePriority.setLevel_afterFill {ld : Ladder} (hwf : ld.WF) (h : ld.TimePriority)
    {p : UInt64} {l : Level} (hl : (p, l) ∈ ld.levels) (size : UInt64) :
    (ld.setLevel p (l.afterFill size)).TimePriority := by
  obtain ⟨pre, post, hls, hls'⟩ := levels_setLevel hwf hl (l.afterFill size)
  intro e he
  rw [hls'] at he
  simp only [List.mem_append, List.mem_map, Option.mem_toList] at he
  rcases he with (he | ⟨l', hl', rfl⟩) | he
  · exact h e (by simp [hls, he])
  · have hq : l'.queue = (Level.consume l.queue size).2.1 := by
      have := Level.queue_afterFill l size
      rw [Option.mem_def.1 hl'] at this
      simpa using this
    rw [hq]
    exact (Level.consume_priority (h (p, l) hl) size).2.2.1
  · exact h e (by simp [hls, he])

theorem TimePriority.takeAtOrBelow {ld : Ladder} (h : ld.TimePriority) (price : UInt64) :
    (ld.takeAtOrBelow price).2.TimePriority := by
  rw [takeAtOrBelow_eq]
  exact h.of_subset fun e he => (List.mem_filter.1 he).1

theorem TimePriority.takeAtOrAbove {ld : Ladder} (h : ld.TimePriority) (price : UInt64) :
    (ld.takeAtOrAbove price).2.TimePriority := by
  rw [takeAtOrAbove_eq]
  exact h.of_subset fun e he => (List.mem_filter.1 he).1

/-- Removing an order keeps time priority: its level keeps the others in their order. -/
theorem TimePriority.remove? {ld : Ladder} (h : ld.TimePriority) {id : UInt64} {o : Order}
    {ld' : Ladder} (hr : ld.remove? id = some (o, ld')) : ld'.TimePriority := by
  obtain ⟨pre, p, l, l', post, hls, hl, hls'⟩ := remove?_eq_some hr
  obtain ⟨qpre, qpost, hq, -, -, rfl⟩ := Level.remove?_eq_some hl
  intro e he
  rw [hls'] at he
  simp only [List.mem_append] at he
  rcases he with (he | he) | he
  · exact h e (by simp [hls, he])
  · split at he
    · simp at he
    · rw [List.mem_singleton.1 he]
      have hlq : InArrivalOrder l.queue := h (p, l) (by simp [hls])
      rw [hq] at hlq
      exact hlq.sublist ((List.sublist_cons_self o qpost).append_left qpre)
  · exact h e (by simp [hls, he])

end Ladder

namespace Book

/-- Time priority of the book: every level of its four ladders queues its orders in arrival
order. -/
structure TimePriority (b : Book) : Prop where
  asks : b.asks.TimePriority
  bids : b.bids.TimePriority
  stopAsks : b.stopAsks.TimePriority
  stopBids : b.stopBids.TimePriority

theorem timePriority_empty : empty.TimePriority :=
  ⟨Ladder.timePriority_empty, Ladder.timePriority_empty, Ladder.timePriority_empty,
    Ladder.timePriority_empty⟩

theorem TimePriority.limitSide {b : Book} (h : b.TimePriority) (s : Side) :
    (b.limitSide s).TimePriority := by
  cases s with
  | bid => exact h.bids
  | ask => exact h.asks

theorem TimePriority.setLimitSide {b : Book} (h : b.TimePriority) (s : Side) {ld : Ladder}
    (hld : ld.TimePriority) : (b.setLimitSide s ld).TimePriority := by
  cases s with
  | bid => exact ⟨h.asks, hld, h.stopAsks, h.stopBids⟩
  | ask => exact ⟨hld, h.bids, h.stopAsks, h.stopBids⟩

theorem older_of_mem_ladders {b : Book} {o : Order} (hnew : ∀ x ∈ b.restingOrders, x.id < o.id)
    {ld : Ladder} (hld : ld ∈ b.ladders) : ∀ x ∈ ld.orders, x.id < o.id :=
  fun x hx => hnew x (List.mem_flatMap.2 ⟨ld, hld, hx⟩)

section Inserts

variable {b : Book} (h : b.TimePriority) {o : Order}
  (hnew : ∀ x ∈ b.restingOrders, x.id < o.id)
include h hnew

/-- **An insert of the newest order keeps time priority.** -/
theorem TimePriority.insertLimit : (b.insertLimit o).TimePriority := by
  unfold Book.insertLimit
  split
  · exact ⟨h.asks, h.bids.insert (older_of_mem_ladders hnew (by simp [ladders])), h.stopAsks,
      h.stopBids⟩
  · exact ⟨h.asks.insert (older_of_mem_ladders hnew (by simp [ladders])), h.bids, h.stopAsks,
      h.stopBids⟩

theorem TimePriority.insertStop : (b.insertStop o).TimePriority := by
  unfold Book.insertStop
  split
  · exact ⟨h.asks, h.bids, h.stopAsks,
      h.stopBids.insert (older_of_mem_ladders hnew (by simp [ladders]))⟩
  · exact ⟨h.asks, h.bids, h.stopAsks.insert (older_of_mem_ladders hnew (by simp [ladders])),
      h.stopBids⟩

end Inserts

/-- A fill keeps time priority: only the level it took from changes, to what it left. -/
theorem TimePriority.execute {b : Book} (hwf : b.WF) (h : b.TimePriority) {o : Order}
    {clock : UInt64} {drained : Bool} {b' : Book} {fs : List Fill}
    (hx : b.execute o clock = some (drained, b', fs)) : b'.TimePriority := by
  obtain ⟨price, b₁, makers, hm, rfl, -⟩ := execute_eq_some hx
  obtain ⟨l, -, hl, -, -, -, rfl⟩ := matchBest_eq_some hm
  have hld := hwf.limitSide o.side.opposite
  have h₁ := h.setLimitSide o.side.opposite
    ((h.limitSide o.side.opposite).setLevel_afterFill hld (hld.level?_eq_some_iff.1 hl) o.size)
  -- neither the resting count nor the history has a queue
  exact ⟨h₁.asks, h₁.bids, h₁.stopAsks, h₁.stopBids⟩

/-- A release keeps time priority: it takes whole levels out of one stop ladder. -/
theorem TimePriority.release {b : Book} (h : b.TimePriority) (s : Side) :
    (b.release s).1.TimePriority := by
  cases s with
  | ask =>
    simp only [Book.release]
    split
    · exact h
    · rename_i p _
      exact ⟨h.asks, h.bids, h.stopAsks, h.stopBids.takeAtOrBelow p⟩
  | bid =>
    simp only [Book.release]
    split
    · exact h
    · rename_i p _
      exact ⟨h.asks, h.bids, h.stopAsks.takeAtOrAbove p, h.stopBids⟩

/-- A cancel keeps time priority. -/
theorem TimePriority.cancel? {b : Book} (h : b.TimePriority) {id : UInt64} {o : Order}
    {b' : Book} (hc : b.cancel? id = some (o, b')) : b'.TimePriority := by
  rcases cancel?_eq_some hc with
    ⟨ld, hr, rfl⟩ | ⟨ld, hr, rfl⟩ | ⟨ld, hr, rfl⟩ | ⟨ld, hr, rfl⟩
  · exact ⟨h.asks.remove? hr, h.bids, h.stopAsks, h.stopBids⟩
  · exact ⟨h.asks, h.bids.remove? hr, h.stopAsks, h.stopBids⟩
  · exact ⟨h.asks, h.bids, h.stopAsks.remove? hr, h.stopBids⟩
  · exact ⟨h.asks, h.bids, h.stopAsks, h.stopBids.remove? hr⟩

/-! ## Released groups -/

theorem release_sorted (b : Book) (s : Side) :
    (b.release s).2.Pairwise (fun a b => a.id ≤ b.id) := by
  cases s with
  | ask =>
    simp only [release]
    split
    · exact List.Pairwise.nil
    · exact byId_sorted _
  | bid =>
    simp only [release]
    split
    · exact List.Pairwise.nil
    · exact byId_sorted _

/-- The ids left resting after a release and those of the group it returns are the resting
ids before it, so they stay distinct when those were. -/
theorem release_ids_nodup {b : Book} (hnd : b.restingIds.Nodup) (s : Side) :
    ((b.release s).1.restingIds ++ (b.release s).2.map (·.id)).Nodup := by
  have hperm := ((release_accounting b s).1).map (·.id)
  simpa [restingIds] using hperm.nodup_iff.2 hnd

/-- **A released group is in arrival order** when the resting ids are distinct: it is
sorted by id, and its ids are distinct. -/
theorem release_inArrivalOrder {b : Book} (hnd : b.restingIds.Nodup) (s : Side) :
    InArrivalOrder (b.release s).2 := by
  have hdist : (b.release s).2.Pairwise (fun a b => a.id ≠ b.id) :=
    List.pairwise_map.1 (List.nodup_append.1 (release_ids_nodup hnd s)).2.1
  exact (release_sorted b s).imp₂ (fun _ _ hle hne => UInt64.lt_of_le_of_ne hle hne) hdist

/-- A fill leaves resting only orders that rested before: the order it executes is among
those it logs. -/
theorem execute_restingIds_nodup {b : Book} (hwf : b.WF) (hnd : b.restingIds.Nodup)
    {o : Order} {clock : UInt64} {drained : Bool} {b' : Book} {fs : List Fill}
    (hx : b.execute o clock = some (drained, b', fs)) : b'.restingIds.Nodup := by
  obtain ⟨logged, -, hperm, hid, -⟩ := execute_accounting hwf hx
  have hsub : List.Subperm (b'.restingIds ++ [o.id]) (b.restingIds ++ [o.id]) :=
    ((List.subperm_append_left b'.restingIds).2 (List.singleton_subperm_iff.2 hid)).trans
      hperm.subperm
  exact nodup_of_subperm ((List.subperm_append_right _).1 hsub) hnd

/-! ## Through a cascade -/

/-- What a book keeps for time priority along a run: the invariant, every queue in arrival
order, and distinct resting ids. -/
structure Orderly (b : Book) : Prop where
  wf : b.WF
  timePriority : b.TimePriority
  nodup : b.restingIds.Nodup

theorem Orderly.execute {b : Book} (h : b.Orderly) {o : Order} {clock : UInt64}
    {drained : Bool} {b' : Book} {fs : List Fill}
    (hx : b.execute o clock = some (drained, b', fs)) : b'.Orderly :=
  ⟨execute_wf h.wf hx, h.timePriority.execute h.wf hx, execute_restingIds_nodup h.wf h.nodup hx⟩

theorem Orderly.release {b : Book} (h : b.Orderly) (s : Side) : (b.release s).1.Orderly :=
  ⟨release_wf h.wf s, h.timePriority.release s,
    (List.nodup_append.1 (release_ids_nodup h.nodup s)).1⟩

variable (clock : UInt64)

theorem Orderly.market {b b' : Book} (h : b.Orderly) {id : UInt64} {side : Side}
    {size : UInt64} {user : String} {fs : List Fill}
    (hm : b.market id side size user clock = some (b', fs)) : b'.Orderly :=
  market_invariant clock Orderly (fun _ _ _ _ _ hb hx => hb.execute hx) (fun _ s hb => hb.release s)
    h hm

theorem mem_pushGroup {g g' : List Order} {pending : List (List Order)}
    (h : g' ∈ pushGroup g pending) : g' = g ∨ g' ∈ pending := by
  unfold pushGroup at h
  split at h
  · exact Or.inr h
  · exact List.mem_cons.1 h

/-- What holds at every state of the stop loop: the book is orderly and every pending group
is in arrival order. -/
def LoopOrderly (st : Book × List (List Order)) : Prop :=
  st.1.Orderly ∧ ∀ g ∈ st.2, InArrivalOrder g

/-- **One step of the loop keeps it orderly**: the stop taken was the oldest of its group, the
rest of the group stays in order, and a drain pushes a group in arrival order. -/
theorem LoopStep.orderly {st st' : Book × List (List Order)} (hs : LoopStep clock st st')
    (h : LoopOrderly st) : LoopOrderly st' := by
  obtain ⟨hb, hg⟩ := h
  cases hs with
  | pop b rest => exact ⟨hb, fun g hg' => hg g (List.mem_cons_of_mem _ hg')⟩
  | turn b stop group rest =>
    have hpend : ∀ g ∈ pushGroup group rest, InArrivalOrder g := by
      intro g hg'
      rcases mem_pushGroup hg' with rfl | hg'
      · exact List.Pairwise.of_cons (hg (stop :: g) List.mem_cons_self)
      · exact hg g (List.mem_cons_of_mem _ hg')
    rcases stopTurn_cases clock b stop (pushGroup group rest) with
      ⟨-, heq⟩ | ⟨b', fs, hx, heq⟩ | ⟨b', fs, hx, heq⟩ <;> rw [heq]
    · exact ⟨hb, hpend⟩
    · exact ⟨hb.execute hx, hpend⟩
    · have hb' := hb.execute hx
      refine ⟨hb'.release _, fun g hg' => ?_⟩
      rcases mem_pushGroup hg' with rfl | hg'
      · exact release_inArrivalOrder hb'.nodup _
      · exact hpend g hg'

/-- ... so every state of a market order's stop loop is orderly. -/
theorem MarketLoop.orderly {b : Book} (hb : b.Orderly) {id : UInt64} {side : Side}
    {size : UInt64} {user : String} {st : Book × List (List Order)}
    (h : MarketLoop clock b id side size user st) : LoopOrderly st := by
  refine MarketLoop.invariant clock LoopOrderly (fun b₁ fs hx => ?_)
    (fun _ _ hs hst => hs.orderly clock hst) h
  -- the loop starts from the group released after the order's own drain
  have h₁ := hb.execute hx
  refine ⟨h₁.release _, fun g hg => ?_⟩
  rcases mem_pushGroup hg with rfl | hg
  · exact release_inArrivalOrder h₁.nodup _
  · simp at hg

theorem MarketExec.orderly {b : Book} (hb : b.Orderly) {id : UInt64} {side : Side}
    {size : UInt64} {user : String} {c : Book} {o : Order}
    (h : MarketExec clock b id side size user c o) : c.Orderly :=
  MarketExec.book_invariant clock Orderly (fun _ _ _ _ _ hb hx => hb.execute hx)
    (fun _ s hb => hb.release s) hb h

end Book

namespace Snapshot

theorem nextId_le_floor (s : Snapshot) : s.nextId.toNat ≤ s.floor.toNat := by
  simp only [floor, UInt64.toNat_max]
  exact Nat.le_max_right _ _

end Snapshot

namespace Exchange

/-- The states of the runs time priority speaks of: a new exchange, one opened on a file that
holds the snapshot of such a state, and what calls make of them, when an insert does not wrap
the id sequence and a restore puts back the snapshot of such a state. -/
inductive Sequenced : Exchange → Prop
  | new (sessions : Sessions) (clock : UInt64) : Sequenced (new sessions clock)
  | onFile (sessions : Sessions) (clock : UInt64) (f : SnapshotFile) {e : Exchange} :
      Sequenced e → (∀ s, f.load = .ok (some s) → s = e.snapshot) →
      Sequenced (onFile sessions clock f)
  | perform {e : Exchange} (c : Call) : Sequenced e → (∀ s, c ≠ .restore s) →
      (e.takesId c → e.nextId.toNat + 1 < UInt64.size) → Sequenced (e.perform c)
  | restore {e e' : Exchange} : Sequenced e → Sequenced e' →
      Sequenced (e.perform (.restore e'.snapshot))

/-- Restoring the snapshot of a state that keeps the ledger puts its book back, and raises
the sequence at least to its own: the ledger holds again. -/
theorem ledger_restore_snapshot {e' : Exchange} (h' : e'.Ledger) (e : Exchange) :
    (e.restore e'.snapshot).Ledger ∧ (e.restore e'.snapshot).book = e'.book := by
  have hbook : (e.restore e'.snapshot).book = e'.book := Book.restore_capture h'.wf e'.nextId
  have hfloor := Snapshot.nextId_le_floor (e'.book.capture e'.nextId)
  refine ⟨⟨hbook ▸ h'.wf, hbook ▸ h'.nodup, fun x hx => ?_, hbook ▸ h'.unstamped,
    hbook ▸ h'.stamped⟩, hbook⟩
  rw [hbook] at hx
  have hx' := UInt64.lt_iff_toNat_lt.1 (h'.fresh x hx)
  show x < max e.nextId (e'.book.capture e'.nextId).floor
  rw [UInt64.lt_iff_toNat_lt, UInt64.toNat_max]
  change x.toNat < e'.nextId.toNat at hx'
  change e'.nextId.toNat ≤ _ at hfloor
  omega

/-- A state that keeps the ledger, with its book in time priority, has an orderly book: the
resting ids are among the ids of the book, which are distinct. -/
theorem Ledger.orderly {e : Exchange} (h : e.Ledger) (hp : e.book.TimePriority) :
    e.book.Orderly :=
  ⟨h.wf, hp, (List.nodup_append.1 h.nodup).1⟩

/-- A call other than a restore keeps every queue in arrival order: an accepted insert brings
the newest order, a market order and a cancel keep time priority. -/
theorem timePriority_perform {e : Exchange} (h : e.Ledger) (hp : e.book.TimePriority)
    {c : Call} (hc : ∀ s, c ≠ .restore s) : (e.perform c).book.TimePriority := by
  rcases perform_cases e c with ⟨o, -, hid, -, -, -, hins⟩ |
    ⟨side, size, user, -, -, -, hm⟩ | ⟨id, user, o, -, -, -, hcancel, -⟩ | ⟨s, rfl, -⟩ |
    ⟨-, hbook, -⟩
  · -- the new order takes the sequence, above every id in the book
    have hnew : ∀ x ∈ e.book.restingOrders, x.id < o.id := by
      intro x hx
      rw [hid]
      exact h.fresh x.id (List.mem_append_left _ (List.mem_map_of_mem hx))
    rcases hins with hbook | hbook <;> rw [hbook]
    · exact hp.insertLimit hnew
    · exact hp.insertStop hnew
  · rcases hm with hbook | ⟨fs, hm⟩
    · rw [hbook]
      exact hp
    · exact ((h.orderly hp).market e.clock hm).timePriority
  · exact hp.cancel? hcancel
  · exact absurd rfl (hc s)
  · rw [hbook]
    exact hp

/-- **Every sequenced state keeps the ledger, and its book keeps time priority.** -/
theorem Sequenced.orderly {e : Exchange} (h : e.Sequenced) : e.Ledger ∧ e.book.TimePriority := by
  induction h with
  | new sessions clock => exact ⟨ledger_new sessions clock, Book.timePriority_empty⟩
  | onFile sessions clock f _ hload ih =>
    unfold Exchange.onFile
    split
    · rename_i s hs
      rw [hload s hs]
      obtain ⟨hl, hbook⟩ := ledger_restore_snapshot ih.1 _
      exact ⟨hl, hbook ▸ ih.2⟩
    · -- nothing loaded: the book of a new exchange
      have h₀ := ledger_new sessions clock
      exact ⟨⟨h₀.wf, h₀.nodup, h₀.fresh, h₀.unstamped, h₀.stamped⟩,
        Book.timePriority_empty⟩
  | perform c _ hc hwrap ih =>
    exact ⟨ledger_perform ih.1 hc hwrap, timePriority_perform ih.1 ih.2 hc⟩
  | restore _ _ _ ih' =>
    obtain ⟨hl, hbook⟩ := ledger_restore_snapshot ih'.1 _
    exact ⟨hl, hbook ▸ ih'.2⟩

/-- **Time priority.**  In every state of a sequenced run, every level of the four ladders
queues its orders in arrival order.  So does every book a market order's stop cascade passes
through, and every group of released stops still pending is in arrival order: the stops of a
group run oldest first.  Hence every execution of the market order and of its cascade fills
the levels of the book it meets oldest first: it takes a prefix of the queue, every maker it
takes is older than every order it leaves, and the one order it can leave partly filled is
the oldest order left at the level. -/
theorem time_priority {e : Exchange} (h : e.Sequenced) :
    e.book.TimePriority ∧
    (∀ clock id side size user st, Book.MarketLoop clock e.book id side size user st →
      st.1.TimePriority ∧ ∀ g ∈ st.2, InArrivalOrder g) ∧
    (∀ clock id side size user c o, Book.MarketExec clock e.book id side size user c o →
      ∀ p l, (c.limitSide o.side.opposite).level? p = some l →
        (Level.consume l.queue o.size).1 <+: l.queue ∧
        (∀ m ∈ (Level.consume l.queue o.size).1, ∀ x ∈ (Level.consume l.queue o.size).2.1,
          m.id < x.id) ∧
        InArrivalOrder (Level.consume l.queue o.size).2.1 ∧
        (Level.consume l.queue o.size).2.1.tail <:+ l.queue) := by
  obtain ⟨hl, hp⟩ := h.orderly
  have hb := hl.orderly hp
  refine ⟨hp, fun clock id side size user st hloop => ?_,
    fun clock id side size user c o hexec p l hlv => ?_⟩
  · obtain ⟨hst, hg⟩ := Book.MarketLoop.orderly clock hb hloop
    exact ⟨hst.timePriority, hg⟩
  · -- the execution meets an orderly book, whose levels are queues in arrival order
    have hc := Book.MarketExec.orderly clock hb hexec
    have hld := hc.wf.limitSide o.side.opposite
    exact Level.consume_priority
      ((hc.timePriority.limitSide o.side.opposite) _ (hld.level?_eq_some_iff.1 hlv)) o.size

/-- A new exchange after two bids at one price is sequenced, and its queues are in arrival
order. -/
theorem time_priority_two_bids :
    (((new (Sessions.empty 0) 0).perform (.limit .bid 5 100 "alice")).perform
        (.limit .bid 3 100 "bob")).Sequenced ∧
      (((new (Sessions.empty 0) 0).perform (.limit .bid 5 100 "alice")).perform
        (.limit .bid 3 100 "bob")).book.TimePriority :=
  have h₁ : ((new (Sessions.empty 0) 0).perform (.limit .bid 5 100 "alice")).Sequenced :=
    .perform _ (.new _ _) (fun s h => by cases h) (fun _ => by decide)
  have h₂ : (((new (Sessions.empty 0) 0).perform (.limit .bid 5 100 "alice")).perform
      (.limit .bid 3 100 "bob")).Sequenced :=
    .perform _ h₁ (fun s h => by cases h) (fun _ => by decide)
  ⟨h₂, (time_priority h₂).1⟩

end Exchange

end Bourse
