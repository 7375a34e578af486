import Mathlib
import Bourse.Daily
import Bourse.Proofs.Sorting

/-!
# The daily summaries of a month partition its trading

`aggregateRange history start stop` keeps the executed orders of `history` with a timestamp in
`[start, stop)`, sorts them by timestamp, files them by the day of the month of their timestamp
and summarises each day.  This file shows that the days partition those orders, for every
history, whatever the order of its timestamps, and that for a month of the years 0 to 9999 no
order of the month is lost for want of a date.

* `StablySorted`, `stablySorted_mergeSort`: sorting by timestamp keeps the orders of one
  timestamp in their order;
* `DaySummary.Groups`, `Groups.step`: the fold that files the sorted orders by day keeps the
  days ascending, and each group the orders of its day in the order they came;
* `DaySummary.Summarises`, `ofOrders_eq_some`: the prices of a summary are the first, last,
  highest and lowest of its orders;
* `aggregateRange_days_ascending`, `mem_days_aggregateRange`, `aggregateRange_days_sorted`,
  `flatMap_orders_aggregateRange_perm`: the summaries of any range;
* `MonthCode.bounds_snd_eq_zero`, `MonthCode.toNat_bounds_snd_le`, `DaySummary.dayOf_isSome`:
  a month before 1970 ends at the epoch, a month of the years 0 to 9999 ends by the first
  instant of year 10000, and every instant before that has a date;
* `aggregateMonth_partitions`: all of it for every history and every month of those years.
-/

namespace Bourse

/-! ## Stable sorting by timestamp -/

/-- `os` lists the orders of `E` by timestamp, the orders of one timestamp in their order in
`E`. -/
structure StablySorted (os E : List Order) : Prop where
  perm : os.Perm E
  sorted : os.Pairwise fun a b => a.timestamp ≤ b.timestamp
  stable : ∀ t, os.filter (·.timestamp == t) = E.filter (·.timestamp == t)

/-- **Sorting by timestamp is stable**, as sorting by any key is. -/
theorem stablySorted_mergeSort (E : List Order) :
    StablySorted (E.mergeSort fun a b => a.timestamp ≤ b.timestamp) E :=
  have h := sortedByKey_mergeSort (·.timestamp) E
  ⟨h.perm, h.sorted, h.stable⟩

/-- Keeping the orders that pass a test keeps a stable sort. -/
theorem StablySorted.filter {os E : List Order} (h : StablySorted os E) (p : Order → Bool) :
    StablySorted (os.filter p) (E.filter p) where
  perm := h.perm.filter p
  sorted := h.sorted.filter p
  stable t := by
    -- the two tests commute
    have hcomm : ∀ l : List Order, (l.filter p).filter (·.timestamp == t) =
        (l.filter (·.timestamp == t)).filter p := by
      intro l
      simp only [List.filter_filter, Bool.and_comm]
    rw [hcomm, hcomm, h.stable t]

namespace DaySummary

/-! ## Summarising one day -/

/-- Folding a choice between two values through a list picks one of its values, and every value
is related by `R` to the one picked: for `max` at or below it, for `min` at or above. -/
theorem foldl_choice (R : UInt64 → UInt64 → Prop) {op : UInt64 → UInt64 → UInt64}
    (hop : ∀ a b, op a b = a ∨ op a b = b) (hrel : ∀ a b, R a (op a b) ∧ R b (op a b))
    (hrefl : ∀ a, R a a) (htrans : ∀ a b c, R a b → R b c → R a c) (a : UInt64) (l : List UInt64) :
    l.foldl op a ∈ a :: l ∧ ∀ x ∈ a :: l, R x (l.foldl op a) := by
  induction l generalizing a with
  | nil => simp [hrefl]
  | cons b l ih =>
    obtain ⟨hmem, hall⟩ := ih (op a b)
    -- the running choice is `a` or `b`, and both are related to it
    refine ⟨?_, fun x hx => ?_⟩
    · rw [List.foldl_cons]
      rcases List.mem_cons.1 hmem with h | h
      · rw [h]
        rcases hop a b with hab | hab <;> rw [hab] <;> simp
      · exact List.mem_cons_of_mem _ (List.mem_cons_of_mem _ h)
    · rcases List.mem_cons.1 hx with rfl | hx
      · exact htrans _ _ _ (hrel x b).1 (hall _ List.mem_cons_self)
      · rcases List.mem_cons.1 hx with rfl | hx
        · exact htrans _ _ _ (hrel a x).2 (hall _ List.mem_cons_self)
        · exact hall x (List.mem_cons_of_mem _ hx)

theorem foldl_max (a : UInt64) (l : List UInt64) :
    l.foldl max a ∈ a :: l ∧ ∀ x ∈ a :: l, x ≤ l.foldl max a := by
  refine foldl_choice (· ≤ ·) (fun a b => ?_) (fun a b => ?_) UInt64.le_refl
    (fun _ _ _ => UInt64.le_trans) a l
  · show (if a ≤ b then b else a) = a ∨ (if a ≤ b then b else a) = b
    split_ifs <;> simp
  · show a ≤ (if a ≤ b then b else a) ∧ b ≤ (if a ≤ b then b else a)
    split_ifs with h
    · exact ⟨h, UInt64.le_refl b⟩
    · exact ⟨UInt64.le_refl a, (UInt64.le_total a b).resolve_left h⟩

theorem foldl_min (a : UInt64) (l : List UInt64) :
    l.foldl min a ∈ a :: l ∧ ∀ x ∈ a :: l, l.foldl min a ≤ x := by
  refine foldl_choice (fun x y => y ≤ x) (fun a b => ?_) (fun a b => ?_) UInt64.le_refl
    (fun _ _ _ h h' => UInt64.le_trans h' h) a l
  · show (if a ≤ b then a else b) = a ∨ (if a ≤ b then a else b) = b
    split_ifs <;> simp
  · show (if a ≤ b then a else b) ≤ a ∧ (if a ≤ b then a else b) ≤ b
    split_ifs with h
    · exact ⟨UInt64.le_refl a, h⟩
    · exact ⟨(UInt64.le_total a b).resolve_left h, UInt64.le_refl b⟩

/-- What a summary says of its orders: there is one at least, the opening and closing prices
are those of the first and last, and the highest and lowest prices are the largest and the
smallest of their prices. -/
structure Summarises (s : DaySummary) : Prop where
  nonempty : s.orders ≠ []
  opening : s.orders.head?.map (·.price) = some s.opening
  closing : s.orders.getLast?.map (·.price) = some s.closing
  highest_mem : s.highest ∈ s.orders.map (·.price)
  lowest_mem : s.lowest ∈ s.orders.map (·.price)
  within : ∀ p ∈ s.orders.map (·.price), s.lowest ≤ p ∧ p ≤ s.highest

/-- The opening and closing prices lie between the lowest and the highest. -/
theorem Summarises.open_close_within {s : DaySummary} (h : s.Summarises) :
    (s.lowest ≤ s.opening ∧ s.opening ≤ s.highest) ∧ (s.lowest ≤ s.closing ∧ s.closing ≤ s.highest) := by
  obtain ⟨o, ho, hop⟩ := Option.map_eq_some_iff.1 h.opening
  obtain ⟨c, hc, hcp⟩ := Option.map_eq_some_iff.1 h.closing
  rw [← hop, ← hcp]
  exact ⟨h.within _ (List.mem_map_of_mem (List.mem_of_mem_head? ho)),
    h.within _ (List.mem_map_of_mem (List.mem_of_getLast? hc))⟩

/-- A day's summary is made only of a non-empty list of orders, which it keeps, and it
summarises them. -/
theorem ofOrders_eq_some {d : Nat} {os : List Order} {s : DaySummary} (h : ofOrders d os = some s) :
    s.day = d ∧ s.orders = os ∧ s.Summarises := by
  cases os with
  | nil => cases h
  | cons o rest =>
    simp only [ofOrders, Option.some.injEq] at h
    subst h
    obtain ⟨hmax, hmax_ge⟩ := foldl_max o.price (rest.map (·.price))
    obtain ⟨hmin, hmin_le⟩ := foldl_min o.price (rest.map (·.price))
    refine ⟨rfl, rfl, ⟨by simp, by simp, ?_, ?_, ?_, ?_⟩⟩
    · simp [List.getLast?_cons]
    · simpa using hmax
    · simpa using hmin
    · intro p hp
      rw [List.map_cons] at hp
      exact ⟨hmin_le p hp, hmax_ge p hp⟩

theorem ofOrders_isSome (d : Nat) {os : List Order} (h : os ≠ []) : (ofOrders d os).isSome := by
  cases os with
  | nil => exact absurd rfl h
  | cons o rest => rfl

/-! ## Filing by day -/

/-- The step by which the sorted orders are filed: an order with a day joins the group of that
day, an order without one is left out. -/
def fileByDay (acc : List (Nat × List Order)) (o : Order) : List (Nat × List Order) :=
  match dayOf o.timestamp with
  | some d => addTo d o acc
  | none => acc

section Filing

variable {d : Nat} {o : Order}

theorem mem_keys_addTo (g : List (Nat × List Order)) (k : Nat) :
    k ∈ (addTo d o g).map (·.1) ↔ k = d ∨ k ∈ g.map (·.1) := by
  induction g with
  | nil => simp [addTo]
  | cons e rest ih =>
    obtain ⟨d', os⟩ := e
    simp only [addTo]
    split_ifs with hlt heq
    · simp
    · simp [heq]
    · simp only [List.map_cons, List.mem_cons, ih, or_left_comm]

/-- Filing an order keeps the days ascending. -/
theorem addTo_ascending {g : List (Nat × List Order)} (hg : g.Pairwise (·.1 < ·.1)) :
    (addTo d o g).Pairwise (·.1 < ·.1) := by
  induction g with
  | nil => simp [addTo]
  | cons e rest ih =>
    obtain ⟨d', os⟩ := e
    rw [List.pairwise_cons] at hg
    simp only [addTo]
    split_ifs with hlt heq
    · -- a new first group, before every other day
      refine List.Pairwise.cons (fun e he => ?_) (List.pairwise_cons.2 hg)
      rcases List.mem_cons.1 he with rfl | he
      · exact hlt
      · exact Nat.lt_trans hlt (hg.1 e he)
    · exact List.pairwise_cons.2 hg
    · refine List.Pairwise.cons (fun e he => ?_) (ih hg.2)
      rcases (mem_keys_addTo rest e.1).1 (List.mem_map_of_mem he) with h | h
      · dsimp only
        omega
      · obtain ⟨e', he', hkey⟩ := List.mem_map.1 h
        exact hkey ▸ hg.1 e' he'

/-- What filing an order can do to a group: leave one of another day, open the group of its
day when there is none, or append the order to the group of its day. -/
theorem mem_addTo {g : List (Nat × List Order)} (hg : g.Pairwise (·.1 < ·.1))
    {e : Nat × List Order} (he : e ∈ addTo d o g) :
    (e ∈ g ∧ e.1 ≠ d) ∨ (e = (d, [o]) ∧ d ∉ g.map (·.1)) ∨
      ∃ os, (d, os) ∈ g ∧ e = (d, os ++ [o]) := by
  induction g with
  | nil =>
    simp only [addTo, List.mem_singleton] at he
    simp [he]
  | cons e' rest ih =>
    obtain ⟨d', os⟩ := e'
    rw [List.pairwise_cons] at hg
    -- the days after `d'` all lie above it
    have habove : ∀ k ∈ rest.map (·.1), d' < k := by
      intro k hk
      obtain ⟨e'', he'', rfl⟩ := List.mem_map.1 hk
      exact hg.1 e'' he''
    simp only [addTo] at he
    split_ifs at he with hlt heq
    · rcases List.mem_cons.1 he with rfl | he
      · refine Or.inr (Or.inl ⟨rfl, ?_⟩)
        simp only [List.map_cons, List.mem_cons, not_or]
        exact ⟨by omega, fun h => by have := habove d h; omega⟩
      · refine Or.inl ⟨he, ?_⟩
        rcases List.mem_cons.1 he with rfl | he
        · dsimp only
          omega
        · have := habove e.1 (List.mem_map_of_mem he)
          omega
    · subst heq
      rcases List.mem_cons.1 he with rfl | he
      · exact Or.inr (Or.inr ⟨os, List.mem_cons_self, rfl⟩)
      · have := habove e.1 (List.mem_map_of_mem he)
        exact Or.inl ⟨List.mem_cons_of_mem _ he, by omega⟩
    · rcases List.mem_cons.1 he with rfl | he
      · exact Or.inl ⟨List.mem_cons_self, by dsimp only; omega⟩
      · rcases ih hg.2 he with ⟨he', hne⟩ | ⟨rfl, hnot⟩ | ⟨os', hmem, rfl⟩
        · exact Or.inl ⟨List.mem_cons_of_mem _ he', hne⟩
        · refine Or.inr (Or.inl ⟨rfl, ?_⟩)
          simp only [List.map_cons, List.mem_cons, not_or]
          exact ⟨by omega, hnot⟩
        · exact Or.inr (Or.inr ⟨os', List.mem_cons_of_mem _ hmem, rfl⟩)

/-- Filing an order adds it, and only it, to the groups. -/
theorem flatMap_addTo_perm (g : List (Nat × List Order)) :
    ((addTo d o g).flatMap (·.2)).Perm (g.flatMap (·.2) ++ [o]) := by
  induction g with
  | nil => simp [addTo]
  | cons e rest ih =>
    obtain ⟨d', os⟩ := e
    simp only [addTo]
    split_ifs
    · simpa using List.perm_middle.symm.trans ((List.perm_append_singleton o _).symm.append_left os)
    · simpa using (List.perm_append_singleton o _).symm.append_left os
    · simpa using ih.append_left os

end Filing

/-- `g` files the orders `L` by day: the days ascend; each group is the orders of `L` on its
day, in their order in `L`, and is not empty; every day of an order of `L` has its group; and
the groups hold exactly the orders of `L` that have a day. -/
structure Groups (L : List Order) (g : List (Nat × List Order)) : Prop where
  ascending : g.Pairwise (·.1 < ·.1)
  group_eq : ∀ e ∈ g, e.2 = L.filter (dayOf ·.timestamp == some e.1)
  nonempty : ∀ e ∈ g, e.2 ≠ []
  covers : ∀ x ∈ L, ∀ d, dayOf x.timestamp = some d → d ∈ g.map (·.1)
  perm : (g.flatMap (·.2)).Perm (L.filter fun x => (dayOf x.timestamp).isSome)

theorem Groups.nil : Groups [] [] :=
  ⟨List.Pairwise.nil, by simp, by simp, by simp, by simp⟩

/-- **Filing one more order keeps the groups.** -/
theorem Groups.step {L : List Order} {g : List (Nat × List Order)} (h : Groups L g) (o : Order) :
    Groups (L ++ [o]) (fileByDay g o) := by
  unfold fileByDay
  cases hd : dayOf o.timestamp with
  | none =>
    -- an order without a day changes no group
    refine ⟨h.ascending, fun e he => ?_, h.nonempty, fun x hx d' hx' => ?_, ?_⟩
    · simp [List.filter_append, hd, h.group_eq e he]
    · rcases List.mem_append.1 hx with hx | hx
      · exact h.covers x hx d' hx'
      · rw [List.mem_singleton.1 hx, hd] at hx'
        cases hx'
    · simpa [List.filter_append, hd] using h.perm
  | some d =>
    refine ⟨addTo_ascending h.ascending, fun e he => ?_, fun e he => ?_, fun x hx d' hx' => ?_, ?_⟩
    · rcases mem_addTo h.ascending he with ⟨he, hne⟩ | ⟨rfl, hnot⟩ | ⟨os, hmem, rfl⟩
      · have : d ≠ e.1 := fun h => hne h.symm
        simp [List.filter_append, hd, h.group_eq e he, this]
      · -- no order before had the day `d`, or its group would exist
        have hnone : L.filter (dayOf ·.timestamp == some d) = [] := by
          refine List.filter_eq_nil_iff.2 fun x hx hx' => hnot (h.covers x hx d ?_)
          simpa using hx'
        simp [List.filter_append, hd, hnone]
      · simp [List.filter_append, hd, ← h.group_eq _ hmem]
    · rcases mem_addTo h.ascending he with ⟨he, -⟩ | ⟨rfl, -⟩ | ⟨os, -, rfl⟩
      · exact h.nonempty e he
      · simp
      · simp
    · rw [mem_keys_addTo]
      rcases List.mem_append.1 hx with hx | hx
      · exact Or.inr (h.covers x hx d' hx')
      · rw [List.mem_singleton.1 hx, hd] at hx'
        exact Or.inl (Option.some.inj hx').symm
    · refine (flatMap_addTo_perm g).trans ?_
      simpa [List.filter_append, hd] using h.perm.append_right [o]

/-- ... and so does filing a list of them, one after the other. -/
theorem Groups.foldl {L : List Order} {g : List (Nat × List Order)} (h : Groups L g)
    (L' : List Order) : Groups (L ++ L') (L'.foldl fileByDay g) := by
  induction L' generalizing L g with
  | nil => simpa using h
  | cons o L' ih =>
    simpa using ih (h.step o)

/-- A day is filed exactly when an order of `L` falls on it. -/
theorem Groups.mem_keys {L : List Order} {g : List (Nat × List Order)} (h : Groups L g) (d : Nat) :
    d ∈ g.map (·.1) ↔ ∃ x ∈ L, dayOf x.timestamp = some d := by
  constructor
  · intro hd
    obtain ⟨e, he, rfl⟩ := List.mem_map.1 hd
    -- the group is not empty, and holds only orders of its day
    obtain ⟨x, hx⟩ := List.exists_mem_of_ne_nil _ (h.nonempty e he)
    rw [h.group_eq e he, List.mem_filter] at hx
    exact ⟨x, hx.1, by simpa using hx.2⟩
  · rintro ⟨x, hx, hday⟩
    exact h.covers x hx d hday

/-- Summarising non-empty groups gives one summary per group, with its day and its orders. -/
theorem pairs_filterMap_ofOrders {g : List (Nat × List Order)} (h : ∀ e ∈ g, e.2 ≠ []) :
    (g.filterMap fun e => ofOrders e.1 e.2).map (fun s => (s.day, s.orders)) = g := by
  induction g with
  | nil => rfl
  | cons e rest ih =>
    obtain ⟨s, hs⟩ := Option.isSome_iff_exists.1 (ofOrders_isSome e.1 (h e List.mem_cons_self))
    obtain ⟨hday, horders, -⟩ := ofOrders_eq_some hs
    simp only [List.filterMap_cons, hs, List.map_cons,
      ih fun e' he' => h e' (List.mem_cons_of_mem _ he'), hday, horders]

/-! ## The summaries of a range -/

section Range

variable (history : List Order) (start stop : UInt64)

/-- Whether the summaries of `[start, stop)` count an order: it executed at an instant of the
range. -/
def counted (o : Order) : Bool := o.executed && start ≤ o.timestamp && o.timestamp < stop

/-- The orders of the range, sorted by timestamp. -/
def sortedIn : List Order := (history.filter (counted start stop)).mergeSort
  fun a b => a.timestamp ≤ b.timestamp

/-- The orders of the range, filed by day. -/
def filedIn : List (Nat × List Order) := (sortedIn history start stop).foldl fileByDay []

theorem aggregateRange_eq :
    aggregateRange history start stop =
      (filedIn history start stop).filterMap fun e => ofOrders e.1 e.2 := by
  unfold aggregateRange filedIn sortedIn counted
  rfl

theorem groups_filedIn : Groups (sortedIn history start stop) (filedIn history start stop) := by
  have h := Groups.nil.foldl (sortedIn history start stop)
  rwa [List.nil_append] at h

theorem pairs_aggregateRange :
    (aggregateRange history start stop).map (fun s => (s.day, s.orders)) = filedIn history start stop :=
  pairs_filterMap_ofOrders (groups_filedIn history start stop).nonempty

/-- The days of the summaries are those of the filed groups. -/
theorem days_aggregateRange :
    (aggregateRange history start stop).map (·.day) = (filedIn history start stop).map (·.1) := by
  rw [← pairs_aggregateRange, List.map_map]
  rfl

/-- **The days ascend**, so no day has two summaries. -/
theorem aggregateRange_days_ascending :
    ((aggregateRange history start stop).map (·.day)).Pairwise (· < ·) := by
  rw [days_aggregateRange, List.pairwise_map]
  exact (groups_filedIn history start stop).ascending

/-- **A day has a summary exactly when an order of the range falls on it.** -/
theorem mem_days_aggregateRange (d : Nat) :
    d ∈ (aggregateRange history start stop).map (·.day) ↔
      ∃ o ∈ history, counted start stop o = true ∧ dayOf o.timestamp = some d := by
  rw [days_aggregateRange, (groups_filedIn history start stop).mem_keys]
  -- the sort keeps the orders of the range
  have hperm := List.mergeSort_perm (history.filter (counted start stop))
    fun a b => a.timestamp ≤ b.timestamp
  simp only [sortedIn, hperm.mem_iff, List.mem_filter]
  constructor
  · rintro ⟨x, ⟨hx, hc⟩, hd⟩
    exact ⟨x, hx, hc, hd⟩
  · rintro ⟨x, hx, hc, hd⟩
    exact ⟨x, ⟨hx, hc⟩, hd⟩

/-- **Each summary summarises the orders of its day, sorted stably by timestamp.** -/
theorem aggregateRange_days_sorted {s : DaySummary} (hs : s ∈ aggregateRange history start stop) :
    s.Summarises ∧ StablySorted s.orders
      (history.filter fun o => counted start stop o && dayOf o.timestamp == some s.day) := by
  obtain ⟨e, he, hof⟩ := List.mem_filterMap.1 ((aggregateRange_eq history start stop) ▸ hs)
  obtain ⟨hday, horders, hsum⟩ := ofOrders_eq_some hof
  refine ⟨hsum, ?_⟩
  rw [horders, (groups_filedIn history start stop).group_eq e he, hday, ← List.filter_filter]
  have := (stablySorted_mergeSort (history.filter (counted start stop))).filter
    (dayOf ·.timestamp == some e.1)
  simpa [sortedIn, List.filter_filter, Bool.and_comm] using this

/-- **Together the summaries hold each order of the range that has a day, once.** -/
theorem flatMap_orders_aggregateRange_perm :
    ((aggregateRange history start stop).flatMap (·.orders)).Perm
      (history.filter fun o => counted start stop o && (dayOf o.timestamp).isSome) := by
  have hflat : (aggregateRange history start stop).flatMap (·.orders) =
      (filedIn history start stop).flatMap (·.2) := by
    rw [← pairs_aggregateRange, List.flatMap_map]
  rw [hflat, ← List.filter_filter]
  refine (groups_filedIn history start stop).perm.trans ?_
  have := (List.mergeSort_perm (history.filter (counted start stop))
    fun a b => a.timestamp ≤ b.timestamp).filter fun x => (dayOf x.timestamp).isSome
  simpa [sortedIn, List.filter_filter, Bool.and_comm] using this

end Range

end DaySummary

/-! ## Calendar bounds of a month -/

namespace Calendar

/-- The first day of a month up to January 10000 lies at most 2932897 days after the epoch:
that many days lie before year 10000. -/
theorem daysFromCivil_le {y : Int} {m : Nat} (hy : y < 10000 ∨ y = 10000 ∧ m = 1)
    (hm : 1 ≤ m ∧ m ≤ 12) : daysFromCivil y m 1 ≤ 2932897 := by
  dsimp only [daysFromCivil]
  split_ifs <;> omega

/-- The first day of a month up to January 1970 lies at or before the epoch. -/
theorem daysFromCivil_nonpos {y : Int} {m : Nat} (hy : y < 1970 ∨ y = 1970 ∧ m = 1)
    (hm : 1 ≤ m ∧ m ≤ 12) : daysFromCivil y m 1 ≤ 0 := by
  dsimp only [daysFromCivil]
  split_ifs <;> omega

/-- Every day from the epoch to the first day of year 10000 is in a year with dates. -/
theorem inRange_civilOfDays {days : Int} (h₀ : 0 ≤ days) (h₁ : days ≤ 2932897) :
    inRange (civilOfDays days).1 = true := by
  dsimp only [civilOfDays, inRange, firstYear, lastYear]
  split_ifs <;> simp <;> omega

/-- A month with dates that starts by January 1970 is reported to start at 0. -/
theorem monthStart_eq_zero {y : Int} {m : Nat} (hr : inRange y = true)
    (hy : y < 1970 ∨ y = 1970 ∧ m = 1) (hm : 1 ≤ m ∧ m ≤ 12) : monthStart y m = 0 := by
  have hd := daysFromCivil_nonpos hy hm
  unfold monthStart
  rw [if_pos ⟨hm.1, hm.2, hr⟩]
  dsimp only
  split_ifs with hneg
  · rfl
  · -- the month starts at the epoch itself
    have : daysFromCivil y m 1 * dayMillis = 0 := by
      simp only [dayMillis] at hneg ⊢
      omega
    rw [this]
    rfl

/-- A month with dates that starts by January 10000 starts by the first instant of that year. -/
theorem toNat_monthStart_le {y : Int} {m : Nat} (hr : inRange y = true)
    (hy : y < 10000 ∨ y = 10000 ∧ m = 1) (hm : 1 ≤ m ∧ m ≤ 12) :
    (monthStart y m).toNat ≤ 2932897 * 86400000 := by
  have hd := daysFromCivil_le hy hm
  unfold monthStart
  rw [if_pos ⟨hm.1, hm.2, hr⟩]
  dsimp only
  split_ifs with hneg
  · simp
  · -- reading the start back as a word loses nothing it could gain
    simp only [dayMillis, Nat.toUInt64_eq, UInt64.toNat_ofNat'] at hneg ⊢
    calc (daysFromCivil y m 1 * 86400000).toNat % 2 ^ 64
        ≤ (daysFromCivil y m 1 * 86400000).toNat := Nat.mod_le _ _
      _ ≤ 2932897 * 86400000 := by omega

/-- A word below `2 ^ 63` reads as itself. -/
theorem signed_of_lt {w : UInt64} (h : w.toNat < 2 ^ 63) : signed w = w.toNat := by
  unfold signed
  exact if_pos h

end Calendar

namespace DaySummary

/-- **Every instant from the epoch to the first instant of year 10000 has a day.** -/
theorem dayOf_isSome {t : UInt64} (h : t.toNat ≤ 2932897 * 86400000) : (dayOf t).isSome := by
  have hs : Calendar.signed t = t.toNat := Calendar.signed_of_lt (by omega)
  have hr : Calendar.inRange (Calendar.civilOfDays ((t.toNat : Int) / Calendar.dayMillis)).1 = true :=
    Calendar.inRange_civilOfDays (by simp [Calendar.dayMillis]; omega)
      (by simp [Calendar.dayMillis]; omega)
  simp [dayOf, Calendar.dateOfMillis, hs, hr]

end DaySummary

namespace MonthCode

theorem inRange_of_le {y : Int} (h₀ : 0 ≤ y) (h₁ : y ≤ 10000) : Calendar.inRange y = true := by
  simp only [Calendar.inRange, Calendar.firstYear, Calendar.lastYear, Bool.and_eq_true]
  exact ⟨decide_eq_true (by omega), decide_eq_true (by omega)⟩

/-- **A month before 1970 ends at the epoch**, so no instant lies in it. -/
theorem bounds_snd_eq_zero {m : MonthCode} (hm : 1 ≤ m.month ∧ m.month ≤ 12) (h₀ : 0 ≤ m.year)
    (h : m.year < 1970) : m.bounds.2 = 0 := by
  unfold bounds next
  split_ifs with h12 <;> dsimp only
  · exact Calendar.monthStart_eq_zero (inRange_of_le (by omega) (by omega)) (by omega) (by omega)
  · exact Calendar.monthStart_eq_zero (inRange_of_le h₀ (by omega)) (Or.inl h) (by omega)

/-- A month of the years 0 to 9999 ends by the first instant of year 10000. -/
theorem toNat_bounds_snd_le {m : MonthCode} (hm : 1 ≤ m.month ∧ m.month ≤ 12)
    (hy : 0 ≤ m.year ∧ m.year ≤ 9999) : m.bounds.2.toNat ≤ 2932897 * 86400000 := by
  unfold bounds next
  split_ifs with h12 <;> dsimp only
  · exact Calendar.toNat_monthStart_le (inRange_of_le (by omega) (by omega)) (by omega) (by omega)
  · exact Calendar.toNat_monthStart_le (inRange_of_le hy.1 (by omega)) (by omega) (by omega)

/-- Whether an order executed within the month. -/
def traded (m : MonthCode) (o : Order) : Bool := DaySummary.counted m.bounds.1 m.bounds.2 o

/-- Whether an order executed within the month, on day `d` of it. -/
def tradedOn (m : MonthCode) (d : Nat) (o : Order) : Bool :=
  m.traded o && DaySummary.dayOf o.timestamp == some d

/-- Every order executed within a month of the years 0 to 9999 has a day. -/
theorem dayOf_isSome_of_traded {m : MonthCode} (hm : 1 ≤ m.month ∧ m.month ≤ 12)
    (hy : 0 ≤ m.year ∧ m.year ≤ 9999) {o : Order} (ho : m.traded o = true) :
    (DaySummary.dayOf o.timestamp).isSome := by
  simp only [traded, DaySummary.counted, Bool.and_eq_true, decide_eq_true_eq] at ho
  have hlt := UInt64.lt_iff_toNat_lt.1 ho.2
  exact DaySummary.dayOf_isSome (by have := toNat_bounds_snd_le hm hy; omega)

/-- Within a month of the years 0 to 9999, asking for a day loses no order. -/
theorem counted_and_isSome {m : MonthCode} (hm : 1 ≤ m.month ∧ m.month ≤ 12)
    (hy : 0 ≤ m.year ∧ m.year ≤ 9999) (o : Order) :
    (DaySummary.counted m.bounds.1 m.bounds.2 o && (DaySummary.dayOf o.timestamp).isSome) =
      m.traded o := by
  cases ho : m.traded o with
  | false =>
    have hc : DaySummary.counted m.bounds.1 m.bounds.2 o = false := ho
    rw [hc, Bool.false_and]
  | true =>
    have hc : DaySummary.counted m.bounds.1 m.bounds.2 o = true := ho
    rw [hc, dayOf_isSome_of_traded hm hy ho, Bool.true_and]

end MonthCode

/-- **The daily summaries of a month partition its trading.**  For every history, in any order
of its timestamps, and every month of the years 0 to 9999: a month before 1970 has no summary;
the days of the summaries ascend, so each day has at most one; a day has a summary exactly when
an order executed within the month falls on it; each summary lists the orders of its day, each
once, sorted by timestamp, orders of one timestamp in their history order, and its prices are
the first, last, highest and lowest of theirs; together the summaries hold every order executed
within the month once, each in the one summary of its day. -/
theorem aggregateMonth_partitions (history : List Order) (m : MonthCode)
    (hm : 1 ≤ m.month ∧ m.month ≤ 12) (hy : 0 ≤ m.year ∧ m.year ≤ 9999) :
    (m.year < 1970 → aggregateMonth history m = []) ∧
    ((aggregateMonth history m).map (·.day)).Pairwise (· < ·) ∧
    (∀ d, d ∈ (aggregateMonth history m).map (·.day) ↔
      ∃ o ∈ history, m.traded o = true ∧ DaySummary.dayOf o.timestamp = some d) ∧
    (∀ s ∈ aggregateMonth history m,
      s.Summarises ∧ StablySorted s.orders (history.filter (m.tradedOn s.day))) ∧
    ((aggregateMonth history m).flatMap (·.orders)).Perm (history.filter m.traded) ∧
    ∀ o ∈ history, m.traded o = true → ∃! s, s ∈ aggregateMonth history m ∧ o ∈ s.orders := by
  have hagg : aggregateMonth history m = aggregateRange history m.bounds.1 m.bounds.2 := rfl
  have hsorted := fun s (hs : s ∈ aggregateMonth history m) =>
    DaySummary.aggregateRange_days_sorted history _ _ (hagg ▸ hs)
  -- an order of the month lies in the summary of its day and in no other
  have hin : ∀ s ∈ aggregateMonth history m, ∀ o ∈ s.orders,
      m.traded o = true ∧ DaySummary.dayOf o.timestamp = some s.day := by
    intro s hs o ho
    have := (hsorted s hs).2.perm.subset ho
    simp only [List.mem_filter, Bool.and_eq_true, beq_iff_eq] at this
    exact this.2
  refine ⟨fun hlt => ?_, hagg ▸ DaySummary.aggregateRange_days_ascending history _ _,
    fun d => hagg ▸ DaySummary.mem_days_aggregateRange history _ _ d, hsorted, ?_, ?_⟩
  · -- the month ends at the epoch, so no order lies in it
    rw [hagg, MonthCode.bounds_snd_eq_zero hm hy.1 hlt, DaySummary.aggregateRange_eq]
    have hnone : history.filter (DaySummary.counted m.bounds.1 0) = [] := by
      simp [DaySummary.counted]
    simp [DaySummary.filedIn, DaySummary.sortedIn, hnone]
  · -- every order of the month has a day, so none is left out
    rw [hagg]
    refine (DaySummary.flatMap_orders_aggregateRange_perm history _ _).trans (List.Perm.of_eq ?_)
    exact List.filter_congr fun o _ => MonthCode.counted_and_isSome hm hy o
  · intro o ho htraded
    obtain ⟨d, hd⟩ := Option.isSome_iff_exists.1 (MonthCode.dayOf_isSome_of_traded hm hy htraded)
    obtain ⟨s, hs, rfl⟩ := List.mem_map.1
      ((hagg ▸ DaySummary.mem_days_aggregateRange history _ _ d).2 ⟨o, ho, htraded, hd⟩)
    have hcounted : DaySummary.counted m.bounds.1 m.bounds.2 o = true := htraded
    refine ⟨s, ⟨hs, (hsorted s hs).2.perm.symm.subset ?_⟩, fun s' ⟨hs', ho'⟩ => ?_⟩
    · simp [ho, hcounted, hd]
    · -- the days ascend, so one day has one summary
      have hnodup := (hagg ▸ DaySummary.aggregateRange_days_ascending history _ _).imp
        fun h => Nat.ne_of_lt h
      exact List.inj_on_of_nodup_map hnodup hs' hs
        (Option.some.inj ((hin s' hs' o ho').2.symm.trans hd))

/-- The trading of January 1970 over a history out of time order: two orders of the 3rd with one
timestamp, one of the 1st, and one still resting.  The summaries hold the three executed orders,
and the second order of the 3rd lies in one summary. -/
theorem aggregateMonth_partitions_january_1970 :
    (1 ≤ MonthCode.month ⟨1970, 1⟩ ∧ MonthCode.month ⟨1970, 1⟩ ≤ 12) ∧
    (0 ≤ MonthCode.year ⟨1970, 1⟩ ∧ MonthCode.year ⟨1970, 1⟩ ≤ 9999) ∧
    ((aggregateMonth [{ Order.limit 1 .bid 5 100 "a" with timestamp := 172800005 },
        { Order.limit 2 .ask 5 105 "b" with timestamp := 1000 },
        { Order.limit 3 .ask 2 99 "c" with timestamp := 172800005 }, Order.limit 4 .bid 1 90 "d"]
        ⟨1970, 1⟩).flatMap (·.orders)).Perm
      ([{ Order.limit 1 .bid 5 100 "a" with timestamp := 172800005 },
        { Order.limit 2 .ask 5 105 "b" with timestamp := 1000 },
        { Order.limit 3 .ask 2 99 "c" with timestamp := 172800005 }, Order.limit 4 .bid 1 90 "d"].filter
        (MonthCode.traded ⟨1970, 1⟩)) ∧
    ∃! s, s ∈ aggregateMonth [{ Order.limit 1 .bid 5 100 "a" with timestamp := 172800005 },
        { Order.limit 2 .ask 5 105 "b" with timestamp := 1000 },
        { Order.limit 3 .ask 2 99 "c" with timestamp := 172800005 }, Order.limit 4 .bid 1 90 "d"]
        ⟨1970, 1⟩ ∧ { Order.limit 3 .ask 2 99 "c" with timestamp := 172800005 } ∈ s.orders := by
  have h := aggregateMonth_partitions [{ Order.limit 1 .bid 5 100 "a" with timestamp := 172800005 },
    { Order.limit 2 .ask 5 105 "b" with timestamp := 1000 },
    { Order.limit 3 .ask 2 99 "c" with timestamp := 172800005 }, Order.limit 4 .bid 1 90 "d"]
    ⟨1970, 1⟩ (by decide) (by decide)
  exact ⟨by decide, by decide, h.2.2.2.2.1, h.2.2.2.2.2 _ (by simp) (by decide)⟩

end Bourse
