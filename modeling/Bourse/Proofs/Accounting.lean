import Bourse.Proofs.Representation

/-!
# Where the orders go

A market order moves orders between the resting ladders and the history: makers taken
whole leave a limit ladder for the history, released stops leave a stop ladder, run, and
either reach the history or are dropped.  This file keeps the books on those moves, by id:

* `matchBest_shape` takes a fill of a well-formed book apart: the maker side's orders are
  `before ++ queue ++ after` and become `before ++ left ++ after`;
* `insertLimit_accounting`, `execute_accounting`, `release_accounting` and
  `cancel?_accounting` are the conservation laws of one insert, one execution, one release
  and one cancel;
* `market_accounting` lifts them through the whole cascade: after a market order of id
  `t`, the resting ids and the ids newly logged are among the resting ids before and `t`,
  each at most once; every resting order is an earlier resting order, possibly reduced;
  everything newly logged carries the execution stamp; and every maker that left a limit
  ladder was logged.
-/

namespace Bourse

namespace Book

/-- The ids of the resting orders. -/
def restingIds (b : Book) : List UInt64 := b.restingOrders.map (·.id)

/-- The orders resting in the two limit ladders. -/
def limitOrders (b : Book) : List Order := b.asks.orders ++ b.bids.orders

/-- The ids of the stops waiting in a stack of released groups. -/
def stackIds (pending : List (List Order)) : List UInt64 := pending.flatten.map (·.id)

@[simp] theorem stackIds_nil : stackIds [] = [] := rfl

@[simp] theorem stackIds_cons (group : List Order) (pending : List (List Order)) :
    stackIds (group :: pending) = group.map (·.id) ++ stackIds pending := by
  simp [stackIds]

@[simp] theorem stackIds_pushGroup (group : List Order) (pending : List (List Order)) :
    stackIds (pushGroup group pending) = group.map (·.id) ++ stackIds pending := by
  unfold pushGroup
  split
  · rename_i h
    simp [List.isEmpty_iff.1 h]
  · simp

theorem restingOrders_perm (b : Book) (s : Side) :
    List.Perm b.restingOrders ((b.limitSide s).orders ++ (b.limitSide s.opposite).orders ++
      b.stopAsks.orders ++ b.stopBids.orders) := by
  rw [restingOrders_eq]
  cases s
  · exact (List.perm_append_comm.append_right _).append_right _
  · exact List.Perm.refl _

theorem limitOrders_perm (b : Book) (s : Side) :
    List.Perm b.limitOrders ((b.limitSide s).orders ++ (b.limitSide s.opposite).orders) := by
  cases s
  · exact List.perm_append_comm
  · exact List.Perm.refl _

/-! ## One fill -/

/-- A fill of a well-formed book: the maker side's orders go from `before ++ queue ++ after`
to `before ++ left ++ after`, where `left` is what the fill left of the level's queue; the
makers are the orders taken whole, stamped; nothing else changes. -/
theorem matchBest_shape {b : Book} (hwf : b.WF) {taker : Side} {size now price : UInt64}
    {drained : Bool} {b' : Book} {makers : List Order}
    (hm : b.matchBest taker size now = some (price, drained, b', makers)) :
    ∃ before after queue,
      (b.limitSide taker.opposite).orders = before ++ queue ++ after ∧
      (b'.limitSide taker.opposite).orders = before ++ (Level.consume queue size).2.1 ++ after ∧
      makers = (Level.consume queue size).1.map (fun o => { o with timestamp := now }) ∧
      b'.limitSide taker = b.limitSide taker ∧ b'.stopAsks = b.stopAsks ∧
      b'.stopBids = b.stopBids ∧ b'.history = b.history := by
  obtain ⟨l, -, hl, -, rfl, -, rfl⟩ := matchBest_eq_some hm
  have hld := hwf.limitSide taker.opposite
  obtain ⟨before, after, h₁, h₂⟩ :=
    orders_setLevel_afterFill hld (hld.level?_eq_some_iff.1 hl) size
  refine ⟨before, after, l.queue, h₁, ?_, rfl, ?_, by simp, by simp, by simp⟩
  · cases taker <;> simpa [limitSide, Side.opposite] using h₂
  · cases taker <;> rfl

/-- Counting an id among the resting orders, side by side. -/
theorem count_restingIds (b : Book) (s : Side) (a : UInt64) :
    b.restingIds.count a = ((b.limitSide s).orders.map (·.id)).count a +
      ((b.limitSide s.opposite).orders.map (·.id)).count a + (b.stopAsks.orders.map (·.id)).count a +
      (b.stopBids.orders.map (·.id)).count a := by
  rw [restingIds, ((restingOrders_perm b s).map (·.id)).count_eq]
  simp [List.count_append, Nat.add_assoc]

theorem mem_restingOrders {b : Book} (s : Side) {x : Order} :
    x ∈ b.restingOrders ↔ x ∈ (b.limitSide s).orders ∨ x ∈ (b.limitSide s.opposite).orders ∨
      x ∈ b.stopAsks.orders ∨ x ∈ b.stopBids.orders := by
  rw [(restingOrders_perm b s).mem_iff]
  simp

theorem mem_limitOrders {b : Book} (s : Side) {x : Order} :
    x ∈ b.limitOrders ↔ x ∈ (b.limitSide s).orders ∨ x ∈ (b.limitSide s.opposite).orders := by
  rw [(limitOrders_perm b s).mem_iff, List.mem_append]

/-- **One execution.**  Executing order `o` logs the makers taken whole and then `o`; the
resting ids and the logged ids are the resting ids before and `o`'s id.  Everything logged
carries the stamp, every order still resting was resting before (a partly filled maker with
a smaller size), and every maker that left a limit ladder was logged. -/
theorem execute_accounting {b : Book} (hwf : b.WF) {o : Order} {clock : UInt64}
    {drained : Bool} {b' : Book} {fs : List Fill}
    (hx : b.execute o clock = some (drained, b', fs)) :
    ∃ logged, b'.history = b.history ++ logged ∧
      List.Perm (b'.restingIds ++ logged.map (·.id)) (b.restingIds ++ [o.id]) ∧
      o.id ∈ logged.map (·.id) ∧ (∀ x ∈ logged, x.timestamp = stampOf clock) ∧
      (∀ x ∈ b'.restingOrders, ∃ x₀ ∈ b.restingOrders, x.Resized x₀) ∧
      (∀ x ∈ b.limitOrders, x.id ∈ b'.limitOrders.map (·.id) ∨ x.id ∈ logged.map (·.id)) := by
  obtain ⟨price, b₁, makers, hm, rfl, -⟩ := execute_eq_some hx
  obtain ⟨before, after, queue, h₁, h₂, rfl, hside, hsa, hsb, hh⟩ := matchBest_shape hwf hm
  have hopp : o.side.opposite.opposite = o.side := Side.opposite_opposite _
  -- the fill split the level's queue into the makers taken and the orders left
  have hids := Level.consume_ids queue o.size
  refine ⟨(Level.consume queue o.size).1.map (fun x => { x with timestamp := stampOf clock }) ++
    [{ o with price, timestamp := stampOf clock }], by simp [hh], ?_, by simp, ?_, ?_, ?_⟩
  · refine List.perm_iff_count.2 fun a => ?_
    have e₁ := count_restingIds b o.side.opposite a
    have e₂ := count_restingIds b₁ o.side.opposite a
    rw [hopp, h₁] at e₁
    rw [hopp, h₂, hside, hsa, hsb] at e₂
    have e₃ := congrArg (List.count a) hids
    simp only [List.map_append, List.count_append] at e₁ e₂ e₃
    change (b₁.restingIds ++ _).count a = _
    simp only [List.count_append, List.map_append, List.map_map, Function.comp_def, List.map_cons,
      List.map_nil]
    omega
  · intro x hx
    rcases List.mem_append.1 hx with hx | hx
    · obtain ⟨y, -, rfl⟩ := List.mem_map.1 hx
      rfl
    · rw [List.mem_singleton.1 hx]
  · intro x hx
    have hx' : x ∈ b₁.restingOrders := hx
    rcases (mem_restingOrders o.side.opposite).1 hx' with hx' | hx' | hx' | hx'
    · rw [h₂] at hx'
      simp only [List.mem_append] at hx'
      rcases hx' with (hx' | hx') | hx'
      · exact ⟨x, (mem_restingOrders o.side.opposite).2 (Or.inl (by simp [h₁, hx'])), rfl⟩
      · obtain ⟨y, hy, hres, -⟩ := Level.mem_consume_left hx'
        exact ⟨y, (mem_restingOrders o.side.opposite).2 (Or.inl (by simp [h₁, hy])), hres⟩
      · exact ⟨x, (mem_restingOrders o.side.opposite).2 (Or.inl (by simp [h₁, hx'])), rfl⟩
    · rw [hopp] at hx'
      rw [hside] at hx'
      exact ⟨x, (mem_restingOrders o.side.opposite).2 (Or.inr (Or.inl (by rw [hopp]; exact hx'))), rfl⟩
    · rw [hsa] at hx'
      exact ⟨x, (mem_restingOrders o.side.opposite).2 (Or.inr (Or.inr (Or.inl hx'))), rfl⟩
    · rw [hsb] at hx'
      exact ⟨x, (mem_restingOrders o.side.opposite).2 (Or.inr (Or.inr (Or.inr hx'))), rfl⟩
  · intro x hx
    rcases (mem_limitOrders o.side.opposite).1 hx with hx | hx
    · rw [h₁] at hx
      simp only [List.mem_append] at hx
      have hin : ∀ y ∈ before ++ (Level.consume queue o.size).2.1 ++ after,
          y.id ∈ b₁.limitOrders.map (·.id) := by
        intro y hy
        refine List.mem_map.2 ⟨y, (mem_limitOrders o.side.opposite).2 (Or.inl ?_), rfl⟩
        show y ∈ (b₁.limitSide o.side.opposite).orders
        rw [h₂]; exact hy
      rcases hx with (hx | hx) | hx
      · exact Or.inl (hin x (by simp [hx]))
      · have : x.id ∈ queue.map (·.id) := List.mem_map.2 ⟨x, hx, rfl⟩
        rw [← hids, List.mem_append] at this
        rcases this with hx' | hx'
        · right
          obtain ⟨y, hy, hyx⟩ := List.mem_map.1 hx'
          exact List.mem_map.2 ⟨{ y with timestamp := stampOf clock },
            List.mem_append_left _ (List.mem_map.2 ⟨y, hy, rfl⟩), hyx⟩
        · obtain ⟨y, hy, hyx⟩ := List.mem_map.1 hx'
          exact Or.inl (hyx ▸ hin y (by simp [hy]))
      · exact Or.inl (hin x (by simp [hx]))
    · left
      refine List.mem_map.2 ⟨x, (mem_limitOrders o.side.opposite).2 (Or.inr ?_), rfl⟩
      show x ∈ (b₁.limitSide o.side.opposite.opposite).orders
      rw [hopp, hside]; rw [hopp] at hx; exact hx

/-! ## One insert, one release, one cancel -/

/-- **One insert.**  A limit order joins the resting orders and nothing else moves. -/
theorem insertLimit_accounting (b : Book) (o : Order) :
    List.Perm (b.insertLimit o).restingOrders (b.restingOrders ++ [o]) ∧
      (b.insertLimit o).history = b.history ∧ b.limitOrders ⊆ (b.insertLimit o).limitOrders := by
  unfold insertLimit
  split
  · refine ⟨List.perm_iff_count.2 fun a => ?_, rfl, fun x hx => ?_⟩
    · have := (Ladder.orders_insert_perm b.bids o).count_eq a
      simp only [restingOrders_eq, List.count_append] at this ⊢
      omega
    · simp only [limitOrders, List.mem_append] at hx ⊢
      exact hx.imp_right fun hx => (Ladder.orders_insert_perm b.bids o).symm.subset
        (List.mem_append_left _ hx)
  · refine ⟨List.perm_iff_count.2 fun a => ?_, rfl, fun x hx => ?_⟩
    · have := (Ladder.orders_insert_perm b.asks o).count_eq a
      simp only [restingOrders_eq, List.count_append] at this ⊢
      omega
    · simp only [limitOrders, List.mem_append] at hx ⊢
      exact hx.imp_left fun hx => (Ladder.orders_insert_perm b.asks o).symm.subset
        (List.mem_append_left _ hx)

/-- A stop order joins the resting orders and nothing else moves. -/
theorem insertStop_accounting (b : Book) (o : Order) :
    List.Perm (b.insertStop o).restingOrders (b.restingOrders ++ [o]) ∧
      (b.insertStop o).history = b.history ∧ (b.insertStop o).limitOrders = b.limitOrders := by
  unfold insertStop
  split
  · refine ⟨List.perm_iff_count.2 fun a => ?_, rfl, rfl⟩
    have := (Ladder.orders_insert_perm b.stopBids o).count_eq a
    simp only [restingOrders_eq, List.count_append] at this ⊢
    omega
  · refine ⟨List.perm_iff_count.2 fun a => ?_, rfl, rfl⟩
    have := (Ladder.orders_insert_perm b.stopAsks o).count_eq a
    simp only [restingOrders_eq, List.count_append] at this ⊢
    omega

/-- **One release.**  A release moves the released stops out of a stop ladder and touches
nothing else: the resting orders after it and the released group are the resting orders
before. -/
theorem release_accounting (b : Book) (s : Side) :
    List.Perm ((b.release s).1.restingOrders ++ (b.release s).2) b.restingOrders ∧
      (b.release s).1.limitOrders = b.limitOrders ∧ (b.release s).1.history = b.history := by
  cases s with
  | ask =>
    simp only [release]
    split
    · simp
    · rename_i p _
      refine ⟨List.perm_iff_count.2 fun a => ?_, rfl, rfl⟩
      have h₁ := (Ladder.orders_takeAtOrBelow_perm b.stopBids p).count_eq a
      have h₂ := (byId_perm (b.stopBids.takeAtOrBelow p).1).count_eq a
      simp only [restingOrders_eq, List.count_append] at h₁ ⊢
      omega
  | bid =>
    simp only [release]
    split
    · simp
    · rename_i p _
      refine ⟨List.perm_iff_count.2 fun a => ?_, rfl, rfl⟩
      have h₁ := (Ladder.orders_takeAtOrAbove_perm b.stopAsks p).count_eq a
      have h₂ := (byId_perm (b.stopAsks.takeAtOrAbove p).1).count_eq a
      simp only [restingOrders_eq, List.count_append] at h₁ ⊢
      omega

/-- **One cancel.**  A cancel takes exactly one resting order, of the id asked for, out of
its ladder; the history and every other order stay. -/
theorem cancel?_accounting {b : Book} {id : UInt64} {o : Order} {b' : Book}
    (hc : b.cancel? id = some (o, b')) :
    o.id = id ∧ List.Perm (o :: b'.restingOrders) b.restingOrders ∧ b'.history = b.history ∧
      ∀ x ∈ b.limitOrders, x ∈ b'.limitOrders ∨ x = o := by
  rcases cancel?_eq_some hc with ⟨ld, hr, rfl⟩ | ⟨ld, hr, rfl⟩ | ⟨ld, hr, rfl⟩ | ⟨ld, hr, rfl⟩ <;>
  · refine ⟨Ladder.id_of_remove? hr, List.perm_iff_count.2 fun a => ?_, rfl, fun x hx => ?_⟩
    · have := (Ladder.orders_remove?_perm hr).count_eq a
      simp only [restingOrders_eq, List.count_cons, List.count_append] at this ⊢
      omega
    · have hsub := (Ladder.orders_remove?_perm hr).symm.subset
      simp only [limitOrders, List.mem_append] at hx ⊢
      grind

/-! ## A whole market order -/

/-- What a market order of id `t` keeps while its cascade runs, against the book `b₀` it
started from, with `logged` what it has logged so far: the resting ids, the logged ids and
the ids of the stops still pending are among the ids resting in `b₀` and `t`, each at most
as often; every resting or pending order was resting in `b₀`, possibly reduced; everything
logged carries the stamp; and every order of `b₀`'s limit ladders rests there still or was
logged. -/
structure Tracked (b₀ : Book) (t stamp : UInt64) (b : Book) (pending : List (List Order))
    (logged : List Order) : Prop where
  wf : b.WF
  history_eq : b.history = b₀.history ++ logged
  ids_subperm : List.Subperm (b.restingIds ++ logged.map (·.id) ++ stackIds pending)
    (b₀.restingIds ++ [t])
  taker_logged : t ∈ logged.map (·.id)
  stamped : ∀ x ∈ logged, x.timestamp = stamp
  resized : ∀ x ∈ b.restingOrders ++ pending.flatten, ∃ x₀ ∈ b₀.restingOrders, x.Resized x₀
  makers : ∀ x ∈ b₀.limitOrders, x.id ∈ b.limitOrders.map (·.id) ∨ x.id ∈ logged.map (·.id)

@[simp] theorem flatten_pushGroup (group : List Order) (pending : List (List Order)) :
    (pushGroup group pending).flatten = group ++ pending.flatten := by
  unfold pushGroup
  split
  · rename_i h
    simp [List.isEmpty_iff.1 h]
  · simp

section Tracked

variable {b₀ : Book} {t stamp : UInt64}

/-- The execution of the market order itself starts the tracking. -/
theorem Tracked.start (hwf : b₀.WF) {side : Side} {size : UInt64} {user : String}
    {clock : UInt64} {drained : Bool} {b : Book} {fs : List Fill}
    (hx : b₀.execute (Order.market t side size user) clock = some (drained, b, fs)) :
    ∃ logged, Tracked b₀ t (stampOf clock) b [] logged := by
  obtain ⟨logged, hh, hperm, hlog, hstamp, hres, hmk⟩ := execute_accounting hwf hx
  refine ⟨logged, execute_wf hwf hx, hh, ?_, hlog, hstamp, ?_, hmk⟩
  · simpa [Order.market] using hperm.subperm
  · simpa using hres

/-- Dropping an empty group keeps the tracking. -/
theorem Tracked.group {b : Book} {rest : List (List Order)} {logged : List Order}
    (h : Tracked b₀ t stamp b ([] :: rest) logged) : Tracked b₀ t stamp b rest logged :=
  { h with
    ids_subperm := by simpa [stackIds] using h.ids_subperm
    resized := by simpa using h.resized }

/-- A stop taken off the stack and dropped: its id leaves the count. -/
theorem Tracked.pop {b : Book} {stop : Order} {group : List Order} {rest : List (List Order)}
    {logged : List Order} (h : Tracked b₀ t stamp b ((stop :: group) :: rest) logged) :
    Tracked b₀ t stamp b (pushGroup group rest) logged := by
  refine { h with ids_subperm := ?_, resized := fun x hx => h.resized x ?_ }
  · refine List.Subperm.trans ?_ h.ids_subperm
    refine (List.sublist_append_right [stop.id] _).subperm.trans
      (List.Perm.subperm (List.perm_iff_count.2 fun a => ?_))
    simp only [stackIds_pushGroup, stackIds_cons, List.map_cons, List.count_append,
      List.count_cons, List.count_nil]
    omega
  · simp only [flatten_pushGroup, List.mem_append] at hx
    simp only [List.flatten_cons, List.mem_append, List.mem_cons]
    tauto

/-- A stop taken off the stack and executed: its id and the ids its execution takes move to
the logged ones. -/
theorem Tracked.execute {b : Book} {stop : Order} {group : List Order}
    {rest : List (List Order)} {logged : List Order} {clock : UInt64} {drained : Bool}
    {b' : Book} {fs : List Fill} (hstamp : stamp = stampOf clock)
    (h : Tracked b₀ t stamp b ((stop :: group) :: rest) logged)
    (hx : b.execute stop clock = some (drained, b', fs)) :
    ∃ logged', Tracked b₀ t stamp b' (pushGroup group rest) logged' := by
  obtain ⟨logged₁, hh, hperm, -, hstamp₁, hres, hmk⟩ := execute_accounting h.wf hx
  refine ⟨logged ++ logged₁, execute_wf h.wf hx, by rw [hh, h.history_eq, List.append_assoc],
    ?_, by simpa using Or.inl h.taker_logged, ?_, fun x hx' => ?_, fun x hx' => ?_⟩
  · refine List.Subperm.trans (List.Perm.subperm ?_) h.ids_subperm
    refine List.perm_iff_count.2 fun a => ?_
    have := hperm.count_eq a
    simp only [stackIds_pushGroup, stackIds_cons, List.map_append, List.map_cons,
      List.count_append, List.count_cons, List.count_nil] at this ⊢
    omega
  · intro x hx'
    rcases List.mem_append.1 hx' with hx' | hx'
    · exact h.stamped x hx'
    · rw [hstamp]; exact hstamp₁ x hx'
  · rcases List.mem_append.1 hx' with hx' | hx'
    · obtain ⟨y, hy, hxy⟩ := hres x hx'
      obtain ⟨x₀, hx₀, hyx₀⟩ := h.resized y (List.mem_append_left _ hy)
      exact ⟨x₀, hx₀, hxy.trans hyx₀⟩
    · refine h.resized x (List.mem_append_right _ ?_)
      simp only [flatten_pushGroup, List.mem_append] at hx'
      simp only [List.flatten_cons, List.mem_append, List.mem_cons]
      tauto
  · rcases h.makers x hx' with hin | hin
    · obtain ⟨y, hy, hyx⟩ := List.mem_map.1 hin
      rcases hmk y hy with hy' | hy'
      · exact Or.inl (hyx ▸ hy')
      · exact Or.inr (by simp only [List.map_append, List.mem_append]; exact Or.inr (hyx ▸ hy'))
    · exact Or.inr (by simp only [List.map_append, List.mem_append]; exact Or.inl hin)

/-- A release moves the released stops from the book onto the stack. -/
theorem Tracked.release {b : Book} {pending : List (List Order)} {logged : List Order}
    (h : Tracked b₀ t stamp b pending logged) (s : Side) :
    Tracked b₀ t stamp (b.release s).1 (pushGroup (b.release s).2 pending) logged := by
  obtain ⟨hperm, hlimit, hhist⟩ := release_accounting b s
  refine ⟨release_wf h.wf s, by rw [hhist, h.history_eq], ?_, h.taker_logged, h.stamped,
    fun x hx => ?_, by rw [hlimit]; exact h.makers⟩
  · refine List.Subperm.trans (List.Perm.subperm ?_) h.ids_subperm
    refine List.perm_iff_count.2 fun a => ?_
    have := (hperm.map (·.id)).count_eq a
    simp only [restingIds, stackIds_pushGroup, List.map_append, List.count_append] at this ⊢
    omega
  · refine h.resized x ?_
    simp only [flatten_pushGroup, List.mem_append] at hx ⊢
    rcases hx with hx | hx | hx
    · exact Or.inl (hperm.subset (List.mem_append_left _ hx))
    · exact Or.inl (hperm.subset (List.mem_append_right _ hx))
    · exact Or.inr hx

/-- One turn of the stop loop keeps the tracking. -/
theorem Tracked.turn {b : Book} {stop : Order} {group : List Order} {rest : List (List Order)}
    {logged : List Order} {clock : UInt64} (hstamp : stamp = stampOf clock)
    (h : Tracked b₀ t stamp b ((stop :: group) :: rest) logged) :
    ∃ logged', Tracked b₀ t stamp (stopTurn clock b stop (pushGroup group rest)).1
      (stopTurn clock b stop (pushGroup group rest)).2.1 logged' := by
  rcases stopTurn_cases clock b stop (pushGroup group rest) with
    ⟨-, heq⟩ | ⟨b', fs, hx, heq⟩ | ⟨b', fs, hx, heq⟩ <;> rw [heq]
  · exact ⟨logged, h.pop⟩
  · exact h.execute hstamp hx
  · obtain ⟨logged', h'⟩ := h.execute hstamp hx
    exact ⟨logged', h'.release _⟩

/-- A whole cascade keeps the tracking. -/
theorem Tracked.cascade {b : Book} {logged : List Order} {clock : UInt64}
    (h : Tracked b₀ t (stampOf clock) b [] logged) (s : Side) :
    ∃ pending logged', Tracked b₀ t (stampOf clock) (b.cascade s clock).1 pending logged' := by
  obtain ⟨pending, logged', h'⟩ := runStops_invariant clock
    (fun b pending _ => ∃ logged, Tracked b₀ t (stampOf clock) b pending logged)
    (fun _ _ _ ⟨logged, h⟩ => ⟨logged, h.group⟩)
    (fun _ _ _ _ _ ⟨logged, h⟩ => h.turn rfl) _ (b.release s).1
    (pushGroup (b.release s).2 []) [] ⟨logged, h.release s⟩
  exact ⟨pending, logged', h'⟩

end Tracked

/-- **The accounting of a market order.**  After a market order of id `t`, cascade
included: the history grows by `logged`; the resting ids and the logged ids are among the
ids resting before and `t`, each at most as often, and `t` is logged; everything logged
carries the execution stamp; every resting order was resting before, possibly reduced; and
every order that left a limit ladder was logged. -/
theorem market_accounting {b b' : Book} (hwf : b.WF) {t : UInt64} {side : Side}
    {size : UInt64} {user : String} {clock : UInt64} {fs : List Fill}
    (hm : b.market t side size user clock = some (b', fs)) :
    ∃ logged, b'.history = b.history ++ logged ∧
      List.Subperm (b'.restingIds ++ logged.map (·.id)) (b.restingIds ++ [t]) ∧
      t ∈ logged.map (·.id) ∧ (∀ x ∈ logged, x.timestamp = stampOf clock) ∧
      (∀ x ∈ b'.restingOrders, ∃ x₀ ∈ b.restingOrders, x.Resized x₀) ∧
      (∀ x ∈ b.limitOrders, x.id ∈ b'.limitOrders.map (·.id) ∨ x.id ∈ logged.map (·.id)) := by
  -- the market order tracked to its end, with whatever stops its cascade left pending
  have htr : ∃ pending logged, Tracked b t (stampOf clock) b' pending logged := by
    unfold market at hm
    split at hm
    · simp at hm
    · rename_i b₁ fs₁ hx
      simp only [Option.some.injEq, Prod.mk.injEq] at hm
      obtain ⟨logged, h⟩ := Tracked.start hwf hx
      exact ⟨[], logged, hm.1 ▸ h⟩
    · rename_i b₁ fs₁ hx
      simp only [Option.some.injEq, Prod.mk.injEq] at hm
      obtain ⟨logged, h⟩ := Tracked.start hwf hx
      exact hm.1 ▸ h.cascade side.opposite
  obtain ⟨pending, logged, h⟩ := htr
  refine ⟨logged, h.history_eq, ?_, h.taker_logged, h.stamped,
    fun x hx => h.resized x (List.mem_append_left _ hx), h.makers⟩
  exact (List.sublist_append_left _ _).subperm.trans h.ids_subperm


end Book

end Bourse
