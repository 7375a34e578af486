import Bourse.Proofs.Calls

/-!
# Fresh ids

Every accepted insert takes the next id of the exchange's sequence and moves the sequence
on; a restore raises it to the snapshot's floor.  As long as the sequence does not wrap and
no restored snapshot holds the last id, every id in the book or the history stays below the
sequence, so the id an insert takes is new.

* `mem_ids_restore`: a restored book holds the snapshot's ids and no others;
* `floor_toNat`: the floor of a snapshot is the larger of its recorded next id and one past
  its largest id (`Snapshot.pastIds`);
* `fresh_perform`: one call keeps every id below the sequence;
* `ids_fresh`: along a whole run, from a new exchange or from one opened on a snapshot file.
-/

namespace Bourse

/-! ## What a restore brings in -/

namespace Ladder

/-- Filing orders at a price brings in those orders, re-priced, and nothing else. -/
theorem mem_fileAt {price : UInt64} {os : List Order} {x : Order} :
    ∀ {ld : Ladder}, x ∈ (ld.fileAt price os).orders → x ∈ ld.orders ∨ ∃ o ∈ os, x.id = o.id := by
  induction os with
  | nil => exact fun hx => Or.inl hx
  | cons o os ih =>
    intro ld hx
    have hx' : x ∈ ((if o.size = 0 then ld else ld.insert { o with price }).fileAt price os).orders :=
      hx
    rcases ih hx' with hx | ⟨o', ho', hid⟩
    · split at hx
      · exact Or.inl hx
      · rcases List.mem_append.1 ((orders_insert_perm ld _).subset hx) with hx | hx
        · exact Or.inl hx
        · exact Or.inr ⟨o, List.mem_cons_self, by rw [List.mem_singleton.1 hx]⟩
    · exact Or.inr ⟨o', List.mem_cons_of_mem _ ho', hid⟩

theorem mem_foldl_fileAt {x : Order} {entries : List (UInt64 × List Order)} :
    ∀ {ld : Ladder}, x ∈ (entries.foldl (fun acc e => acc.fileAt e.1 e.2) ld).orders →
      x ∈ ld.orders ∨ ∃ o ∈ entries.flatMap (·.2), x.id = o.id := by
  induction entries with
  | nil => exact fun hx => Or.inl hx
  | cons e entries ih =>
    intro ld hx
    rcases ih hx with hx | ⟨o, ho, hid⟩
    · rcases mem_fileAt hx with hx | ⟨o, ho, hid⟩
      · exact Or.inl hx
      · exact Or.inr ⟨o, List.mem_append_left _ ho, hid⟩
    · exact Or.inr ⟨o, List.mem_append_right _ ho, hid⟩

/-- A ladder rebuilt from a price map holds the map's ids and no others. -/
theorem mem_ofEntries {entries : List (UInt64 × List Order)} {x : Order}
    (hx : x ∈ (ofEntries entries).orders) : ∃ o ∈ entries.flatMap (·.2), x.id = o.id := by
  rcases mem_foldl_fileAt hx with hx | h
  · simp [empty, orders] at hx
  · exact h

end Ladder

namespace Book

/-- **A restored book holds the snapshot's ids.**  Every id resting in it or in its history
is the id of some order of the snapshot, zero-size orders and the history included. -/
theorem mem_ids_restore {s : Snapshot} {x : UInt64} (hx : x ∈ (restore s).ids) :
    ∃ o ∈ s.allOrders, x = o.id := by
  simp only [ids, restingIds, restingOrders_eq, List.map_append, List.mem_append,
    List.mem_map] at hx
  have hsub : ∀ es : List (UInt64 × List Order), es ⊆ s.asks ++ s.bids ++ s.stopAsks ++ s.stopBids →
      ∀ y ∈ (Ladder.ofEntries es).orders, ∃ o ∈ s.allOrders, y.id = o.id := by
    intro es hes y hy
    obtain ⟨o, ho, hid⟩ := Ladder.mem_ofEntries hy
    obtain ⟨e, he, ho⟩ := List.mem_flatMap.1 ho
    exact ⟨o, List.mem_append_left _ (List.mem_flatMap.2 ⟨e, hes he, ho⟩), hid⟩
  rcases hx with (((⟨y, hy, rfl⟩ | ⟨y, hy, rfl⟩) | ⟨y, hy, rfl⟩) | ⟨y, hy, rfl⟩) | ⟨y, hy, rfl⟩
  · obtain ⟨o, ho, hid⟩ := hsub s.asks (fun e he => by simp [he]) y hy
    exact ⟨o, ho, hid⟩
  · obtain ⟨o, ho, hid⟩ := hsub s.bids (fun e he => by simp [he]) y hy
    exact ⟨o, ho, hid⟩
  · obtain ⟨o, ho, hid⟩ := hsub s.stopAsks (fun e he => by simp [he]) y hy
    exact ⟨o, ho, hid⟩
  · obtain ⟨o, ho, hid⟩ := hsub s.stopBids (fun e he => by simp [he]) y hy
    exact ⟨o, ho, hid⟩
  · exact ⟨y, List.mem_append_right _ hy, rfl⟩

end Book

/-! ## The floor of a snapshot -/

namespace Snapshot

/-- One past the largest id of a snapshot, zero-size orders and the history included; 0 for
a snapshot without orders. -/
def pastIds (s : Snapshot) : Nat := (s.allOrders.map (·.id.toNat + 1)).foldr max 0

theorem lt_pastIds {s : Snapshot} {o : Order} (ho : o ∈ s.allOrders) : o.id.toNat < s.pastIds := by
  unfold pastIds
  generalize s.allOrders = os at ho
  induction os with
  | nil => cases ho
  | cons o' os ih =>
    simp only [List.map_cons, List.foldr_cons]
    rcases List.mem_cons.1 ho with rfl | ho
    · omega
    · have := ih ho
      omega

theorem pastIds_lt_size {s : Snapshot}
    (hs : ∀ o ∈ s.allOrders, o.id.toNat + 1 < UInt64.size) : s.pastIds < UInt64.size := by
  unfold pastIds
  generalize s.allOrders = os at hs
  induction os with
  | nil => simp [UInt64.size]
  | cons o os ih =>
    simp only [List.map_cons, List.foldr_cons]
    have h₁ := hs o List.mem_cons_self
    have h₂ := ih fun o' ho' => hs o' (List.mem_cons_of_mem _ ho')
    omega

/-- The largest id found by the scan, one past it as a number: the scan computes
`pastIds`. -/
theorem maxId?_succ (s : Snapshot) :
    (match s.maxId? with
      | none => 0
      | some m => m.toNat + 1) = s.pastIds := by
  -- the scan's accumulator, read as one past the largest id seen so far
  let seen : Option UInt64 → Nat := fun acc => acc.elim 0 (·.toNat + 1)
  have hfold : ∀ (os : List Order) (acc : Option UInt64),
      seen (os.foldl (fun acc o => some (match acc with
        | none => o.id
        | some m => max m o.id)) acc) = max (seen acc) ((os.map (·.id.toNat + 1)).foldr max 0) := by
    intro os
    induction os with
    | nil => intro acc; simp
    | cons o os ih =>
      intro acc
      rw [List.foldl_cons, ih]
      cases acc with
      | none => simp [seen]
      | some m =>
        simp only [seen, Option.elim_some, UInt64.toNat_max, List.map_cons, List.foldr_cons]
        omega
  have := hfold s.allOrders none
  simp only [seen, Option.elim_none, Nat.zero_max] at this
  rw [pastIds, ← this, maxId?]
  cases s.allOrders.foldl _ none <;> rfl

/-- **The floor of a snapshot.**  When no id of the snapshot is the last one, its floor is
the larger of its recorded next id and one past its largest id. -/
theorem floor_toNat {s : Snapshot} (hs : ∀ o ∈ s.allOrders, o.id.toNat + 1 < UInt64.size) :
    s.floor.toNat = max s.pastIds s.nextId.toNat := by
  have hpast := maxId?_succ s
  have hlt := pastIds_lt_size hs
  rw [floor, UInt64.toNat_max]
  congr 1
  cases h : s.maxId? with
  | none => simp only [h] at hpast; exact hpast
  | some m =>
    have hm : m.toNat + 1 = s.pastIds := by simpa [h] using hpast
    have hfit : m.toNat + 1 < UInt64.size := hm ▸ hlt
    show (m + 1).toNat = s.pastIds
    rw [UInt64.toNat_add, UInt64.toNat_one, Nat.mod_eq_of_lt hfit]
    exact hm

/-- Every id of a snapshot whose ids are not the last one lies below its floor. -/
theorem lt_floor {s : Snapshot} (hs : ∀ o ∈ s.allOrders, o.id.toNat + 1 < UInt64.size)
    {o : Order} (ho : o ∈ s.allOrders) : o.id < s.floor := by
  rw [UInt64.lt_iff_toNat_lt, floor_toNat hs]
  exact Nat.lt_of_lt_of_le (lt_pastIds ho) (Nat.le_max_left _ _)

/-- ... and so below the sequence a restore of the snapshot leaves. -/
theorem lt_max_floor {s : Snapshot} (hs : ∀ o ∈ s.allOrders, o.id.toNat + 1 < UInt64.size)
    {o : Order} (ho : o ∈ s.allOrders) (n : UInt64) : o.id < max n s.floor := by
  have hlt := lt_floor hs ho
  rw [UInt64.lt_iff_toNat_lt, UInt64.toNat_max]
  rw [UInt64.lt_iff_toNat_lt] at hlt
  omega

end Snapshot

/-! ## One call, one run -/

namespace Exchange

/-- Every id of the book and the history lies below the sequence. -/
def Fresh (e : Exchange) : Prop := ∀ x ∈ e.book.ids, x < e.nextId

/-- **One call keeps the ids fresh**, provided an accepted insert does not wrap the sequence
and a restored snapshot does not hold the last id. -/
theorem fresh_perform {e : Exchange} (hwf : e.book.WF) (hfresh : e.Fresh) {c : Call}
    (hwrap : e.takesId c → e.nextId.toNat + 1 < UInt64.size)
    (hsnap : ∀ s, c = .restore s → ∀ o ∈ s.allOrders, o.id.toNat + 1 < UInt64.size) :
    (e.perform c).Fresh := by
  intro x hx
  by_cases hc : ∃ s, c = .restore s
  · -- a restore: every id comes from the snapshot, below its floor
    obtain ⟨s, rfl⟩ := hc
    obtain ⟨o, ho, rfl⟩ := Book.mem_ids_restore hx
    exact Snapshot.lt_max_floor (hsnap s rfl) ho e.nextId
  · have hc' : ∀ s, c ≠ .restore s := fun s h => hc ⟨s, h⟩
    cases ht : e.takesId c
    · -- nothing new, and the sequence stays
      rw [nextId_perform_of_not_takesId ht hc']
      rcases mem_ids_perform hwf hc' hx with hx | ⟨-, h⟩
      · exact hfresh x hx
      · simp [ht] at h
    · -- the one new id is the old next id, one below the new one
      have hn := nextId_perform_toNat ht (hwrap ht)
      rw [UInt64.lt_iff_toNat_lt, hn]
      rcases mem_ids_perform hwf hc' hx with hx | ⟨rfl, -⟩
      · have := UInt64.lt_iff_toNat_lt.1 (hfresh x hx)
        omega
      · exact Nat.lt_succ_self _

theorem fresh_new (sessions : Sessions) (clock : UInt64) : (new sessions clock).Fresh := by
  intro x hx
  simp [new, Book.ids, Book.restingIds, Book.restingOrders_eq, Book.empty, Ladder.empty,
    Ladder.orders] at hx

/-- An exchange opened on a snapshot file starts fresh, when the loaded snapshot does not
hold the last id. -/
theorem fresh_onFile (sessions : Sessions) (clock : UInt64) (f : SnapshotFile)
    (hf : ∀ s, f.load = .ok (some s) → ∀ o ∈ s.allOrders, o.id.toNat + 1 < UInt64.size) :
    (onFile sessions clock f).Fresh ∧ (onFile sessions clock f).book.WF := by
  unfold onFile
  split
  · rename_i s hs
    refine ⟨fun x hx => ?_, Book.restore_wf s⟩
    obtain ⟨o, ho, rfl⟩ := Book.mem_ids_restore hx
    exact Snapshot.lt_max_floor (hf s hs) ho (new sessions clock).nextId
  · exact ⟨fresh_new sessions clock, Book.empty_wf⟩

/-- **The invariant of a run.**  From a new exchange, or from one opened on a snapshot file
that holds no last id, the book stays well formed and its ids below the sequence after every
prefix of a run in which the sequence never wraps and no restored snapshot holds the last
id. -/
theorem wf_fresh_run {sessions : Sessions} {clock : UInt64} {e₀ : Exchange}
    (hstart : e₀ = new sessions clock ∨ ∃ f, e₀ = onFile sessions clock f ∧
      ∀ s, f.load = .ok (some s) → ∀ o ∈ s.allOrders, o.id.toNat + 1 < UInt64.size)
    {calls : List Call}
    (hwrap : ∀ pre c, pre ++ [c] <+: calls → (e₀.run pre).takesId c →
      (e₀.run pre).nextId.toNat + 1 < UInt64.size)
    (hsnap : ∀ s, Call.restore s ∈ calls → ∀ o ∈ s.allOrders, o.id.toNat + 1 < UInt64.size) :
    ∀ pre, pre <+: calls → (e₀.run pre).book.WF ∧ (e₀.run pre).Fresh := by
  refine run_invariant_of_start (fun e => e.book.WF ∧ e.Fresh) e₀ ?_ ?_
  · rcases hstart with rfl | ⟨f, rfl, hf⟩
    · exact ⟨Book.empty_wf, fresh_new sessions clock⟩
    · exact (fresh_onFile sessions clock f hf).symm
  · rintro pre c h ⟨hwf, hfresh⟩
    refine ⟨perform_wf hwf c, fresh_perform hwf hfresh (hwrap pre c h) ?_⟩
    rintro s rfl
    exact hsnap s (h.subset (by simp))

/-- **Order ids are fresh.**  Take a run from a new exchange, or from one opened on a snapshot
file, in which the sequence never wraps and no restored snapshot holds the last id.  Then
every id in the book or the history lies below the sequence; an accepted insert moves the
sequence on by exactly one and brings in no id but the one it took, the next id; the id a
call answers with is the next id; a restore raises the sequence to the largest of its value,
the snapshot's and one past every id in the snapshot; nothing else moves it.  So the ids
taken rise strictly in call order, and none of them is already in the book or the
history. -/
theorem ids_fresh {sessions : Sessions} {clock : UInt64} {e₀ : Exchange}
    (hstart : e₀ = new sessions clock ∨ ∃ f, e₀ = onFile sessions clock f ∧
      ∀ s, f.load = .ok (some s) → ∀ o ∈ s.allOrders, o.id.toNat + 1 < UInt64.size)
    {calls : List Call}
    (hwrap : ∀ pre c, pre ++ [c] <+: calls → (e₀.run pre).takesId c →
      (e₀.run pre).nextId.toNat + 1 < UInt64.size)
    (hsnap : ∀ s, Call.restore s ∈ calls → ∀ o ∈ s.allOrders, o.id.toNat + 1 < UInt64.size) :
    (∀ pre, pre <+: calls → (e₀.run pre).Fresh) ∧
    (∀ pre c, pre ++ [c] <+: calls → (e₀.run pre).takesId c →
      ((e₀.run pre).perform c).nextId.toNat = (e₀.run pre).nextId.toNat + 1 ∧
      ∀ x ∈ ((e₀.run pre).perform c).book.ids,
        x ∈ (e₀.run pre).book.ids ∨ x = (e₀.run pre).nextId) ∧
    (∀ pre c x, pre ++ [c] <+: calls → (e₀.run pre).handedOut c = some x →
      x = (e₀.run pre).nextId) ∧
    (∀ pre s, pre ++ [.restore s] <+: calls →
      ((e₀.run pre).perform (.restore s)).nextId.toNat =
        max (e₀.run pre).nextId.toNat (max s.nextId.toNat s.pastIds)) ∧
    (∀ pre c, pre ++ [c] <+: calls → (e₀.run pre).takesId c = false → (∀ s, c ≠ .restore s) →
      ((e₀.run pre).perform c).nextId = (e₀.run pre).nextId) ∧
    (∀ p₁ c₁ p₂ c₂, p₁ ++ c₁ :: p₂ ++ [c₂] <+: calls → (e₀.run p₁).takesId c₁ →
      (e₀.run (p₁ ++ c₁ :: p₂)).takesId c₂ →
      (e₀.run p₁).nextId < (e₀.run (p₁ ++ c₁ :: p₂)).nextId) ∧
    (∀ pre c, pre ++ [c] <+: calls → (e₀.run pre).takesId c →
      (e₀.run pre).nextId ∉ (e₀.run pre).book.ids) := by
  -- the book stays well formed and its ids below the sequence, call after call
  have hinv := wf_fresh_run hstart hwrap hsnap
  -- an insert is never a restore
  have hins : ∀ (e : Exchange) c, e.takesId c → ∀ s, c ≠ .restore s := by
    rintro e c ht s rfl
    simp [takesId] at ht
  refine ⟨fun pre h => (hinv pre h).2, fun pre c h ht => ⟨?_, fun x hx => ?_⟩,
    fun pre c x _ hx => (handedOut_eq_some hx).1, fun pre s h => ?_,
    fun pre c _ ht hc => nextId_perform_of_not_takesId ht hc, ?_,
    fun pre c h _ hx => ?_⟩
  · exact nextId_perform_toNat ht (hwrap pre c h ht)
  · have hwf := (hinv pre ((List.prefix_append pre [c]).trans h)).1
    exact (mem_ids_perform hwf (hins _ c ht) hx).imp_right And.left
  · -- a restore
    show (max (e₀.run pre).nextId s.floor).toNat = _
    rw [UInt64.toNat_max, Snapshot.floor_toNat (hsnap s (h.subset (by simp))), Nat.max_comm s.pastIds]
  · -- two inserts in order
    intro p₁ c₁ p₂ c₂ h ht₁ _
    have hp : p₁ ++ [c₁] ++ p₂ <+: calls := by
      simpa using (List.prefix_append (p₁ ++ c₁ :: p₂) [c₂]).trans h
    have h₁ : p₁ ++ [c₁] <+: calls := (List.prefix_append _ p₂).trans hp
    -- the first moves the sequence one past its id
    have hstep : (e₀.run p₁).nextId.toNat + 1 = (e₀.run (p₁ ++ [c₁])).nextId.toNat := by
      rw [run_append, run_singleton, nextId_perform_toNat ht₁ (hwrap p₁ c₁ h₁ ht₁)]
    -- from there on it never goes down
    have hmono := nextId_run_mono e₀ (p := p₁ ++ [c₁]) (fun pre c h' => hwrap _ c h') p₂ hp
    rw [List.append_assoc, List.singleton_append] at hmono
    have : (e₀.run p₁).nextId.toNat < (e₀.run (p₁ ++ c₁ :: p₂)).nextId.toNat := by omega
    exact UInt64.lt_iff_toNat_lt.2 this
  · -- the id taken is above every id there
    exact UInt64.ne_of_lt ((hinv pre ((List.prefix_append pre [c]).trans h)).2 _ hx) rfl

/-- The hypotheses of `ids_fresh` hold of a run of one limit order on a new exchange. -/
theorem ids_fresh_one_limit :
    (∀ pre c, pre ++ [c] <+: [Call.limit .bid 5 100 "alice"] →
      ((new (Sessions.empty 0) 0).run pre).takesId c →
      ((new (Sessions.empty 0) 0).run pre).nextId.toNat + 1 < UInt64.size) ∧
    (∀ s, Call.restore s ∈ [Call.limit .bid 5 100 "alice"] →
      ∀ o ∈ s.allOrders, o.id.toNat + 1 < UInt64.size) ∧
    ∀ pre, pre <+: [Call.limit .bid 5 100 "alice"] → ((new (Sessions.empty 0) 0).run pre).Fresh := by
  have hwrap : ∀ pre c, pre ++ [c] <+: [Call.limit .bid 5 100 "alice"] →
      ((new (Sessions.empty 0) 0).run pre).takesId c →
      ((new (Sessions.empty 0) 0).run pre).nextId.toNat + 1 < UInt64.size := by
    intro pre c h _
    -- the only such prefix is the whole run, after no call at all
    have hlen := h.length_le
    simp only [List.length_append, List.length_singleton] at hlen
    have hnil : pre = [] := List.length_eq_zero_iff.1 (by simpa using hlen)
    subst hnil
    decide
  have hsnap : ∀ s, Call.restore s ∈ [Call.limit .bid 5 100 "alice"] →
      ∀ o ∈ s.allOrders, o.id.toNat + 1 < UInt64.size := by
    intro s hs
    simp at hs
  exact ⟨hwrap, hsnap, (ids_fresh (Or.inl rfl) hwrap hsnap).1⟩

end Exchange

end Bourse
