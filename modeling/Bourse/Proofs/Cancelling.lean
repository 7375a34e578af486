import Bourse.Proofs.Calls

/-!
# A cancel removes the order its lookup found

A cancel searches the book twice.  It first looks the id up (`Exchange.order?`): the resting
ladders in the order limit asks, limit bids, stop asks, stop bids, each in ascending price and
oldest first within a price, and then the history.  It checks the owner and the state of the
order found there, and then removes through a second search (`Book.cancel?`) that walks the
ladders level by level.  Ids need not be unique (a restored snapshot may repeat them, and an
unexecuted order may sit in a restored history), so the point is that both searches stop at
the same order, and that the removal touches nothing else.

* `Ladder.RemovesFirst`: what taking the first order of an id out of a ladder does: the rest
  of its queue keeps its order, its level's total drops by the order's size, the level goes
  exactly when it empties, and no other level moves;
* `Ladder.remove?_removesFirst` and `Book.cancel?_cancelsFirst`: the removal does exactly
  that, in the first ladder that holds the id, and `Book.cancel?_eq_none_iff` that it fails
  only when no resting order has the id;
* `Book.find?_eq`: a lookup answers the first resting order of the id, else the first logged
  one, and `Book.CancelsFirst.find?`: the order a cancel removes is that first resting order;
* `Exchange.cancel_outcomes`: for every state, id and user, the answer of a cancel, and on
  success the removal of the very order the lookup found, with nothing else changed but the
  caller's session.
-/

namespace Bourse

namespace Ladder

/-- `ld.RemovesFirst id o ld'`: `o` is the first order of id `id` in `ld`, in ascending price
and oldest first within a price, and `ld'` is `ld` without it.  The rest of its queue keeps its
order, the level's total drops by the order's size, the level is gone exactly when nothing is
left in it, and every other level stays as it was. -/
def RemovesFirst (ld : Ladder) (id : UInt64) (o : Order) (ld' : Ladder) : Prop :=
  ∃ pre p l post front back, ld.levels = pre ++ (p, l) :: post ∧ l.queue = front ++ o :: back ∧
    o.id = id ∧ (∀ x ∈ pre.flatMap (·.2.queue) ++ front, x.id ≠ id) ∧
    ld'.levels = pre ++ (if front ++ back = [] then [] else
      [(p, { queue := front ++ back, total := l.total - o.size.toNat })]) ++ post

/-- **A removal takes out the first order of the id**, as `RemovesFirst` says. -/
theorem remove?_removesFirst {ld ld' : Ladder} {id : UInt64} {o : Order}
    (h : ld.remove? id = some (o, ld')) : ld.RemovesFirst id o ld' := by
  obtain ⟨⟨o', ls'⟩, hrem, heq⟩ := Option.map_eq_some_iff.1 h
  simp only [Prod.mk.injEq] at heq
  obtain ⟨rfl, rfl⟩ := heq
  obtain ⟨pre, p, l, l', post, hls, hpre, hl, rfl⟩ := removeFrom_first hrem
  obtain ⟨front, back, hq, hfront, hid, rfl⟩ := Level.remove?_eq_some hl
  refine ⟨pre, p, l, post, front, back, hls, hq, hid, List.forall_mem_append.2 ⟨hpre, hfront⟩, ?_⟩
  simp [List.isEmpty_iff]

/-- The order a removal takes out is the first of its id among the ladder's orders. -/
theorem RemovesFirst.find? {ld ld' : Ladder} {id : UInt64} {o : Order}
    (h : ld.RemovesFirst id o ld') : ld.orders.find? (·.id == id) = some o := by
  obtain ⟨pre, p, l, post, front, back, hls, hq, hid, hahead, -⟩ := h
  -- nothing ahead of `o` has the id, and `o` has it
  have hnone : (pre.flatMap (·.2.queue) ++ front).find? (·.id == id) = none :=
    List.find?_eq_none.2 fun x hx => by simpa using hahead x hx
  have horders : ld.orders = (pre.flatMap (·.2.queue) ++ front) ++
      (o :: (back ++ post.flatMap (·.2.queue))) := by
    simp [orders, hls, hq]
  rw [horders, List.find?_append, hnone, Option.none_or]
  simp [hid]

end Ladder

namespace Book

/-- `b.CancelsFirst id o b'`: `o` is the first resting order of id `id`, searching limit asks,
limit bids, stop asks and then stop bids, and `b'` is `b` with `o` taken out of its ladder as
`Ladder.RemovesFirst` says and one order fewer counted; the other ladders and the history are
as they were. -/
def CancelsFirst (b : Book) (id : UInt64) (o : Order) (b' : Book) : Prop :=
  ∃ before ld ld' after, b.ladders = before ++ ld :: after ∧
    (∀ x ∈ before.flatMap Ladder.orders, x.id ≠ id) ∧ ld.RemovesFirst id o ld' ∧
    b'.ladders = before ++ ld' :: after ∧ b'.history = b.history ∧ b'.resting = b.resting - 1

theorem restingOrders_eq_flatMap (b : Book) : b.restingOrders = b.ladders.flatMap Ladder.orders :=
  rfl

/-- **A cancel removes the first resting order of the id**, from the first ladder that holds
it. -/
theorem cancel?_cancelsFirst {b : Book} {id : UInt64} {o : Order} {b' : Book}
    (hc : b.cancel? id = some (o, b')) : b.CancelsFirst id o b' := by
  -- each ladder passed over held no order of the id
  have hskip : ∀ {ld : Ladder}, ld.remove? id = none → ∀ x ∈ ld.orders, x.id ≠ id :=
    fun h => Ladder.remove?_eq_none_iff.1 h
  unfold cancel? at hc
  split at hc
  · rename_i ld hr
    simp only [Option.some.injEq, Prod.mk.injEq] at hc
    obtain ⟨rfl, rfl⟩ := hc
    exact ⟨[], b.asks, ld, [b.bids, b.stopAsks, b.stopBids], rfl, by simp,
      Ladder.remove?_removesFirst hr, rfl, rfl, rfl⟩
  rename_i hasks
  split at hc
  · rename_i ld hr
    simp only [Option.some.injEq, Prod.mk.injEq] at hc
    obtain ⟨rfl, rfl⟩ := hc
    exact ⟨[b.asks], b.bids, ld, [b.stopAsks, b.stopBids], rfl, by simpa using hskip hasks,
      Ladder.remove?_removesFirst hr, rfl, rfl, rfl⟩
  rename_i hbids
  split at hc
  · rename_i ld hr
    simp only [Option.some.injEq, Prod.mk.injEq] at hc
    obtain ⟨rfl, rfl⟩ := hc
    refine ⟨[b.asks, b.bids], b.stopAsks, ld, [b.stopBids], rfl, ?_,
      Ladder.remove?_removesFirst hr, rfl, rfl, rfl⟩
    simp only [List.flatMap_cons, List.flatMap_nil, List.append_nil, List.forall_mem_append]
    exact ⟨hskip hasks, hskip hbids⟩
  rename_i hstopAsks
  split at hc
  · rename_i ld hr
    simp only [Option.some.injEq, Prod.mk.injEq] at hc
    obtain ⟨rfl, rfl⟩ := hc
    refine ⟨[b.asks, b.bids, b.stopAsks], b.stopBids, ld, [], rfl, ?_,
      Ladder.remove?_removesFirst hr, rfl, rfl, rfl⟩
    simp only [List.flatMap_cons, List.flatMap_nil, List.append_nil, List.forall_mem_append]
    exact ⟨hskip hasks, hskip hbids, hskip hstopAsks⟩
  · simp at hc

/-- **A lookup is the first resting order of the id**, searching the ladders in order, and
only when none rests the first logged one. -/
theorem find?_eq (b : Book) (id : UInt64) :
    b.find? id = (b.restingOrders.find? (·.id == id)).or (b.history.find? (·.id == id)) := by
  simp only [restingOrders_eq, List.find?_append, Option.or_assoc]
  unfold find?
  unfold Ladder.find?
  split <;> rename_i h <;> simp only [h, Option.some_or, Option.none_or]
  split <;> rename_i h <;> simp only [h, Option.some_or, Option.none_or]
  split <;> rename_i h <;> simp only [h, Option.some_or, Option.none_or]
  split <;> rename_i h <;> simp only [h, Option.some_or, Option.none_or]

/-- The order a cancel removes is the first resting order of its id. -/
theorem CancelsFirst.find? {b b' : Book} {id : UInt64} {o : Order} (h : b.CancelsFirst id o b') :
    b.restingOrders.find? (·.id == id) = some o := by
  obtain ⟨before, ld, ld', after, hls, hbefore, hld, -⟩ := h
  have hnone : (before.flatMap Ladder.orders).find? (·.id == id) = none :=
    List.find?_eq_none.2 fun x hx => by simpa using hbefore x hx
  rw [restingOrders_eq_flatMap, hls, List.flatMap_append, List.flatMap_cons, List.find?_append,
    hnone, Option.none_or, List.find?_append, hld.find?, Option.some_or]

/-- A cancel fails exactly when no resting order has the id. -/
theorem cancel?_eq_none_iff {b : Book} {id : UInt64} :
    b.cancel? id = none ↔ id ∉ b.restingIds := by
  constructor
  · intro h hid
    obtain ⟨x, hx, hxid⟩ := List.mem_map.1 hid
    -- every one of the four searches failed, so no ladder holds the id
    unfold cancel? at h
    split at h
    · cases h
    rename_i hasks
    split at h
    · cases h
    rename_i hbids
    split at h
    · cases h
    rename_i hstopAsks
    split at h
    · cases h
    rename_i hstopBids
    rw [restingOrders_eq] at hx
    simp only [List.mem_append] at hx
    rcases hx with ((hx | hx) | hx) | hx
    · exact Ladder.remove?_eq_none_iff.1 hasks x hx hxid
    · exact Ladder.remove?_eq_none_iff.1 hbids x hx hxid
    · exact Ladder.remove?_eq_none_iff.1 hstopAsks x hx hxid
    · exact Ladder.remove?_eq_none_iff.1 hstopBids x hx hxid
  · intro hid
    refine Option.eq_none_iff_forall_ne_some.2 fun ⟨o, b'⟩ hc => hid ?_
    -- a successful cancel found a resting order of the id
    have hfind := (cancel?_cancelsFirst hc).find?
    exact List.mem_map.2 ⟨o, List.mem_of_find?_eq_some hfind, by simpa using List.find?_some hfind⟩

end Book

namespace Exchange

/-- **What a cancel answers, and what it removes.**  For every state, id and user, a cancel
answers `notFound` when the lookup finds no order of the id; otherwise, for the order `o` the
lookup found (the first resting order of the id, searching limit asks, limit bids, stop asks
and stop bids in ascending price and oldest first, else the first logged one), `notOwner` when
`o` is another user's, `alreadyExecuted` when `o` is stamped, and `notFound` when no order of
the id rests, which leaves only a logged one.  Otherwise the cancel succeeds with the id: it
takes out `o` itself, the rest of its queue keeping its order, its level's total lowered by
`o`'s size and the level dropped exactly when it empties, counts one resting order fewer, and
leaves every other level, the history and the id sequence as they were, refreshing only the
caller's session.  Repeated ids change none of this. -/
theorem cancel_outcomes (e : Exchange) (id : UInt64) (user : String) :
    (e.order? id = none → e.cancel id user = .error (.notFound id) e) ∧
    ∀ o, e.order? id = some o →
      (o.user ≠ user → e.cancel id user = .error (.notOwner id) e) ∧
      (o.user = user → o.timestamp ≠ 0 → e.cancel id user = .error (.alreadyExecuted id) e) ∧
      (o.user = user → o.timestamp = 0 → id ∉ e.book.restingIds →
        e.cancel id user = .error (.notFound id) e) ∧
      (o.user = user → o.timestamp = 0 → id ∈ e.book.restingIds →
        ∃ b', e.book.CancelsFirst id o b' ∧
          e.cancel id user = .ok { value := id, session := (e.sessions.touch user e.clock).2 }
            { e with book := b', sessions := (e.sessions.touch user e.clock).1 }) := by
  refine ⟨fun h => by simp [cancel_eq, h], fun o ho => ?_⟩
  refine ⟨fun hu => ?_, fun hu ht => ?_, fun hu ht hid => ?_, fun hu ht hid => ?_⟩
  · simp [cancel_eq, ho, hu]
  · simp [cancel_eq, ho, hu, Order.executed, ht]
  · simp [cancel_eq, ho, hu, Order.executed, ht, Book.cancel?_eq_none_iff.2 hid]
  · obtain ⟨⟨o', b'⟩, hc⟩ :=
      Option.ne_none_iff_exists'.1 (Book.cancel?_eq_none_iff.not.2 (not_not.2 hid))
    have hfirst := Book.cancel?_cancelsFirst hc
    -- the lookup found a resting order, so it is the first resting one: the one removed
    have ho' : o' = o := by
      have hfind := Book.find?_eq e.book id
      rw [hfirst.find?, Option.some_or] at hfind
      exact Option.some.inj (hfind.symm.trans ho)
    subst ho'
    exact ⟨b', hfirst, by simp [cancel_eq, ho, hu, Order.executed, ht, hc]⟩

/-- A snapshot that files an ask and a bid both of id 7. -/
def sharedIdSnapshot : Snapshot :=
  ⟨[(100, [Order.limit 7 .ask 5 100 "alice"])], [(90, [Order.limit 7 .bid 3 90 "alice"])], [], [],
    [], 8⟩

/-- After restoring the snapshot, the lookup finds the ask, and a cancel of 7 by its owner
removes that ask. -/
theorem cancel_outcomes_repeated_id :
    ((Exchange.new (.empty 0) 0).restore sharedIdSnapshot).order? 7 =
      some (Order.limit 7 .ask 5 100 "alice") ∧
    7 ∈ ((Exchange.new (.empty 0) 0).restore sharedIdSnapshot).book.restingIds ∧
    ∃ b', ((Exchange.new (.empty 0) 0).restore sharedIdSnapshot).book.CancelsFirst 7
        (Order.limit 7 .ask 5 100 "alice") b' := by
  have hfound : ((Exchange.new (.empty 0) 0).restore sharedIdSnapshot).order? 7 =
      some (Order.limit 7 .ask 5 100 "alice") := by decide
  have hrest : 7 ∈ ((Exchange.new (.empty 0) 0).restore sharedIdSnapshot).book.restingIds := by
    decide
  obtain ⟨b', hb', -⟩ := ((cancel_outcomes _ 7 "alice").2 _ hfound).2.2.2 rfl rfl hrest
  exact ⟨hfound, hrest, b', hb'⟩

end Exchange

end Bourse
