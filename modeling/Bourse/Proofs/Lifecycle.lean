import Bourse.Proofs.Freshness

/-!
# The life of an order

From a new exchange, without restores, an order id is taken once, rests until it is filled,
cancelled or released, and is logged at most once, when it executes.  `Exchange.Ledger`
collects what holds after every call: the book is well formed, no id occurs twice across the
resting orders and the history, every id is below the sequence, resting orders are unstamped
and logged ones stamped.

* `ledger_perform`: one call keeps the ledger, provided the sequence does not wrap;
* `nextId_run_le`: without restores the sequence counts at most the calls made, so a run of
  fewer than `2 ^ 64` calls never wraps it;
* `gone_perform` and `gone_run`: an id below the sequence that is not in a set of ids each
  call can only grow by the next id stays out of it;
* `Ledger.executed_iff` and `Ledger.cancel_gone`: a lookup reports an order executed exactly
  when it is logged, and a cancel leaves its id neither resting nor logged;
* `order_lifecycle`: the whole life of an order along a run.
-/

namespace Bourse

theorem nodup_of_subperm {α : Type} {l₁ l₂ : List α} (h : List.Subperm l₁ l₂)
    (hn : l₂.Nodup) : l₁.Nodup := by
  obtain ⟨l, hperm, hsub⟩ := h
  exact hperm.nodup_iff.1 (hsub.nodup hn)

namespace Book

/-- A lookup finds an order of that id, resting or in the history. -/
theorem find?_eq_some {b : Book} {id : UInt64} {o : Order} (h : b.find? id = some o) :
    o.id = id ∧ (o ∈ b.restingOrders ∨ o ∈ b.history) := by
  have hfound : ∀ {l : List Order}, l.find? (·.id == id) = some o → o.id = id ∧ o ∈ l :=
    fun h => ⟨by simpa using List.find?_some h, List.mem_of_find?_eq_some h⟩
  rw [restingOrders_eq]
  unfold find? at h
  split at h
  · rename_i o' h'
    cases h
    obtain ⟨hid, hmem⟩ := hfound h'
    exact ⟨hid, Or.inl (by simp [hmem])⟩
  split at h
  · rename_i o' h'
    cases h
    obtain ⟨hid, hmem⟩ := hfound h'
    exact ⟨hid, Or.inl (by simp [hmem])⟩
  split at h
  · rename_i o' h'
    cases h
    obtain ⟨hid, hmem⟩ := hfound h'
    exact ⟨hid, Or.inl (by simp [hmem])⟩
  split at h
  · rename_i o' h'
    cases h
    obtain ⟨hid, hmem⟩ := hfound h'
    exact ⟨hid, Or.inl (by simp [hmem])⟩
  · obtain ⟨hid, hmem⟩ := hfound h
    exact ⟨hid, Or.inr hmem⟩

end Book

namespace Exchange

/-- What holds of the exchange after every call of a run without restores. -/
structure Ledger (e : Exchange) : Prop where
  wf : e.book.WF
  nodup : e.book.ids.Nodup
  fresh : e.Fresh
  unstamped : ∀ o ∈ e.book.restingOrders, o.timestamp = 0
  stamped : ∀ o ∈ e.book.history, 1 ≤ o.timestamp

theorem ledger_new (sessions : Sessions) (clock : UInt64) : (new sessions clock).Ledger where
  wf := Book.empty_wf
  nodup := by simp [new, Book.ids, Book.restingIds, Book.restingOrders_eq, Book.empty,
    Ladder.empty, Ladder.orders]
  fresh := fresh_new sessions clock
  unstamped := by simp [new, Book.restingOrders_eq, Book.empty, Ladder.empty, Ladder.orders]
  stamped := by simp [new, Book.empty]

theorem one_le_stampOf (clock : UInt64) : 1 ≤ stampOf clock := by
  rw [stampOf, UInt64.le_iff_toNat_le, UInt64.toNat_max]
  exact Nat.le_max_right _ _

/-- **One call keeps the ledger**, when it is no restore and an accepted insert does not wrap
the sequence. -/
theorem ledger_perform {e : Exchange} (h : e.Ledger) {c : Call} (hc : ∀ s, c ≠ .restore s)
    (hwrap : e.takesId c → e.nextId.toNat + 1 < UInt64.size) : (e.perform c).Ledger := by
  obtain ⟨logged, hh, -, hstamp, hres, -⟩ := perform_accounting h.wf hc
  refine ⟨perform_wf h.wf c, ?_, fresh_perform h.wf h.fresh hwrap (fun s hs => absurd hs (hc s)),
    fun x hx => ?_, fun x hx => ?_⟩
  · -- the id taken, if any, is new, so the ids stay distinct
    refine nodup_of_subperm (ids_perform h.wf hc) ?_
    cases ht : e.takesId c
    · simpa using h.nodup
    · simpa [List.nodup_append] using
        And.intro h.nodup fun a ha => UInt64.ne_of_lt (h.fresh a ha)
  · rcases hres x hx with ⟨x₀, hx₀, hxx₀⟩ | ⟨-, hts⟩
    · rw [hxx₀.timestamp_eq]
      exact h.unstamped x₀ hx₀
    · exact hts
  · rw [hh] at hx
    rcases List.mem_append.1 hx with hx | hx
    · exact h.stamped x hx
    · rw [hstamp x hx]
      exact one_le_stampOf e.clock

/-- A resting id is not logged. -/
theorem Ledger.not_logged {e : Exchange} (h : e.Ledger) {id : UInt64}
    (hid : id ∈ e.book.restingIds) : id ∉ e.book.history.map (·.id) := by
  have hdisj := (List.nodup_append.1 h.nodup).2.2
  exact fun hlog => hdisj id hid id hlog rfl

/-- **Executed exactly when logged.**  An order a lookup finds has executed exactly when its
id is in the history. -/
theorem Ledger.executed_iff {e : Exchange} (h : e.Ledger) {id : UInt64} {o : Order}
    (ho : e.order? id = some o) : o.executed = true ↔ id ∈ e.book.history.map (·.id) := by
  obtain ⟨hid, hmem⟩ := Book.find?_eq_some (b := e.book) ho
  rcases hmem with hmem | hmem
  · -- a resting order is unstamped, and its id is not logged
    have hres : id ∈ e.book.restingIds := hid ▸ List.mem_map_of_mem hmem
    simp [Order.executed, h.unstamped o hmem, h.not_logged hres]
  · -- a logged order is stamped
    have hts : o.timestamp ≠ 0 := fun h0 => by
      have := h.stamped o hmem
      rw [h0] at this
      exact absurd this (by decide)
    simp only [Order.executed, hts, bne_iff_ne, ne_eq, not_false_eq_true, true_iff]
    exact hid ▸ List.mem_map_of_mem hmem

/-- **A cancel leaves nothing behind.**  After a successful cancel its id, which was below the
sequence, is neither resting nor logged. -/
theorem Ledger.cancel_gone {e : Exchange} (h : e.Ledger) {id : UInt64} {user : String}
    (hok : (e.cancel id user).toBool) :
    id ∉ (e.perform (.cancel id user)).book.ids ∧ id < e.nextId := by
  obtain ⟨a, e', hr⟩ := EStateM.Result.eq_ok_of_toBool hok
  obtain ⟨-, o, hcan⟩ := cancel_eq_ok hr
  have hp : e.perform (.cancel id user) = e' := by simp [perform, hr, EStateM.Result.state]
  obtain ⟨hid, hperm, hh, -⟩ := Book.cancel?_accounting hcan
  -- the order taken out was the one resting order of its id
  have hres : id ∈ e.book.restingIds := hid ▸ List.mem_map_of_mem (hperm.subset List.mem_cons_self)
  have hnd : (o.id :: e'.book.restingIds).Nodup :=
    (hperm.map Order.id).nodup_iff.2 (List.nodup_append.1 h.nodup).1
  refine ⟨fun hin => ?_, h.fresh id (List.mem_append_left _ hres)⟩
  rw [hp] at hin
  rcases List.mem_append.1 hin with hin | hin
  · exact (List.nodup_cons.1 hnd).1 (hid ▸ hin)
  · rw [hh] at hin
    exact h.not_logged hres hin

/-- Outside restores a call moves the sequence on by at most one. -/
theorem nextId_perform_le_succ (e : Exchange) {c : Call} (hc : ∀ s, c ≠ .restore s) :
    (e.perform c).nextId.toNat ≤ e.nextId.toNat + 1 := by
  cases ht : e.takesId c
  · rw [nextId_perform_of_not_takesId ht hc]
    exact Nat.le_succ _
  · rw [nextId_perform_of_takesId ht, UInt64.toNat_add, UInt64.toNat_one]
    exact Nat.mod_le _ _

/-- Without restores the sequence counts at most the calls made. -/
theorem nextId_run_le (sessions : Sessions) (clock : UInt64) {calls : List Call}
    (hno : ∀ s, Call.restore s ∉ calls) :
    ∀ pre, pre <+: calls → ((new sessions clock).run pre).nextId.toNat ≤ pre.length := by
  intro pre
  induction pre using List.reverseRecOn with
  | nil => intro _; simp [new]
  | append_singleton pre c ih =>
    intro h
    have hc : ∀ s, c ≠ .restore s := by
      rintro s rfl
      exact hno s (h.subset (by simp))
    have hpre := ih ((List.prefix_append pre [c]).trans h)
    have hstep := nextId_perform_le_succ ((new sessions clock).run pre) hc
    rw [run_append, run_singleton, List.length_append, List.length_singleton]
    omega

/-- **What a call cannot bring back.**  Take a set of ids, as a function of the state, that a
call can only grow by the next id.  An id below the sequence and outside the set stays below
and outside it. -/
theorem gone_perform (S : Exchange → List UInt64) {e : Exchange} {c : Call} {id : UInt64}
    (hS : ∀ x ∈ S (e.perform c), x ∈ S e ∨ x = e.nextId)
    (hwrap : e.takesId c → e.nextId.toNat + 1 < UInt64.size)
    (hout : id ∉ S e) (hlt : id < e.nextId) : id ∉ S (e.perform c) ∧ id < (e.perform c).nextId := by
  have hle := nextId_le_perform hwrap
  rw [UInt64.lt_iff_toNat_lt] at hlt ⊢
  refine ⟨fun hin => ?_, Nat.lt_of_lt_of_le hlt hle⟩
  rcases hS id hin with hin | rfl
  · exact hout hin
  · exact Nat.lt_irrefl _ hlt

/-- **What a run cannot bring back.**  If every call after the prefix `p` can only grow the set
`S` by the next id, an id below the sequence and outside `S` after `p` stays outside it. -/
theorem gone_run (S : Exchange → List UInt64) (e₀ : Exchange) {p calls : List Call} {id : UInt64}
    (hS : ∀ pre c, p ++ pre ++ [c] <+: calls → ∀ x ∈ S ((e₀.run (p ++ pre)).perform c),
      x ∈ S (e₀.run (p ++ pre)) ∨ x = (e₀.run (p ++ pre)).nextId)
    (hwrap : ∀ pre c, p ++ pre ++ [c] <+: calls → (e₀.run (p ++ pre)).takesId c →
      (e₀.run (p ++ pre)).nextId.toNat + 1 < UInt64.size)
    (hout : id ∉ S (e₀.run p)) (hlt : id < (e₀.run p).nextId) :
    ∀ q, p ++ q <+: calls → id ∉ S (e₀.run (p ++ q)) := by
  intro q hq
  exact (run_invariant (fun e => id ∉ S e ∧ id < e.nextId) e₀ ⟨hout, hlt⟩
    (fun pre c h hst => gone_perform S (hS pre c h) (hwrap pre c h) hst.1 hst.2) q hq).1

/-- The resting ids after a call but a restore are resting ids before or the next id. -/
theorem mem_restingIds_perform {e : Exchange} (hwf : e.book.WF) {c : Call}
    (hc : ∀ s, c ≠ .restore s) {x : UInt64} (hx : x ∈ (e.perform c).book.restingIds) :
    x ∈ e.book.restingIds ∨ x = e.nextId := by
  obtain ⟨logged, -, hsub, -⟩ := perform_accounting hwf hc
  have := hsub.subset (List.mem_append_left _ hx)
  cases ht : e.takesId c <;> simp_all

/-- **The life of an order.**  Along a run of fewer than `2 ^ 64` calls from a new exchange,
without restores, after every call: no id occurs twice across the resting orders and the
history; resting orders carry timestamp 0 and logged ones a timestamp of at least 1, so an
order looked up has executed exactly when its id is in the history; the history only grows
at its end; an id that has left the resting orders never rests again; an id that a cancel
removed is never logged; and a maker leaves its limit ladder only by being logged or by a
cancel of its id that succeeded. -/
theorem order_lifecycle (sessions : Sessions) (clock : UInt64) (calls : List Call)
    (hno : ∀ s, Call.restore s ∉ calls) (hlen : calls.length < UInt64.size) :
    (∀ pre, pre <+: calls →
      ((new sessions clock).run pre).book.ids.Nodup ∧
      (∀ o ∈ ((new sessions clock).run pre).book.restingOrders, o.timestamp = 0) ∧
      (∀ o ∈ ((new sessions clock).run pre).book.history, 1 ≤ o.timestamp) ∧
      ∀ id o, ((new sessions clock).run pre).order? id = some o →
        (o.executed = true ↔ id ∈ ((new sessions clock).run pre).book.history.map (·.id))) ∧
    (∀ pre c, pre ++ [c] <+: calls →
      ((new sessions clock).run pre).book.history <+:
        ((new sessions clock).run (pre ++ [c])).book.history) ∧
    (∀ p₁ p₂ p₃ id, p₁ ++ p₂ ++ p₃ <+: calls →
      id ∈ ((new sessions clock).run p₁).book.restingIds →
      id ∉ ((new sessions clock).run (p₁ ++ p₂)).book.restingIds →
      id ∉ ((new sessions clock).run (p₁ ++ p₂ ++ p₃)).book.restingIds) ∧
    (∀ p₁ id user p₂, p₁ ++ Call.cancel id user :: p₂ <+: calls →
      (((new sessions clock).run p₁).cancel id user).toBool →
      id ∉ ((new sessions clock).run (p₁ ++ Call.cancel id user :: p₂)).book.history.map (·.id)) ∧
    (∀ pre c, pre ++ [c] <+: calls → ∀ o ∈ ((new sessions clock).run pre).book.limitOrders,
      o.id ∉ ((new sessions clock).run (pre ++ [c])).book.limitOrders.map (·.id) →
      o.id ∈ ((new sessions clock).run (pre ++ [c])).book.history.map (·.id) ∨
        ∃ user, c = .cancel o.id user ∧
          (((new sessions clock).run pre).cancel o.id user).toBool) := by
  -- fewer calls than ids: the sequence never wraps
  have hwrap : ∀ pre c, pre ++ [c] <+: calls →
      ((new sessions clock).run pre).nextId.toNat + 1 < UInt64.size := by
    intro pre c h
    have hle := nextId_run_le sessions clock hno pre ((List.prefix_append pre [c]).trans h)
    have hl := h.length_le
    simp only [List.length_append, List.length_singleton] at hl
    omega
  have hcall : ∀ pre c, pre ++ [c] <+: calls → ∀ s, c ≠ .restore s := by
    rintro pre c h s rfl
    exact hno s (h.subset (by simp))
  -- the ledger holds after every prefix
  have hled : ∀ pre, pre <+: calls → ((new sessions clock).run pre).Ledger :=
    run_invariant_of_start Ledger _ (ledger_new sessions clock)
      fun pre c h hl => ledger_perform hl (hcall pre c h) fun _ => hwrap pre c h
  have hwf : ∀ pre c, pre ++ [c] <+: calls → ((new sessions clock).run pre).book.WF :=
    fun pre c h => (hled pre ((List.prefix_append pre [c]).trans h)).wf
  have hwrap' : ∀ p pre c, p ++ pre ++ [c] <+: calls →
      ((new sessions clock).run (p ++ pre)).takesId c →
      ((new sessions clock).run (p ++ pre)).nextId.toNat + 1 < UInt64.size :=
    fun p pre c h _ => hwrap (p ++ pre) c h
  refine ⟨fun pre h => ?_, fun pre c h => ?_, fun p₁ p₂ p₃ id h hin hout => ?_,
    fun p₁ id user p₂ h hok => ?_, fun pre c h o ho hgone => ?_⟩
  · -- distinct ids, stamps, and what a lookup says
    have hl := hled pre h
    exact ⟨hl.nodup, hl.unstamped, hl.stamped, fun id o ho => hl.executed_iff ho⟩
  · -- the history grows at its end
    obtain ⟨logged, hh, -⟩ := perform_accounting (hwf pre c h) (hcall pre c h)
    rw [run_append, run_singleton, hh]
    exact List.prefix_append _ _
  · -- a resting id is below the sequence, and stays below it
    have hp₁₂ : p₁ ++ p₂ <+: calls := (List.prefix_append _ _).trans h
    have hp₁ : p₁ <+: calls := (List.prefix_append _ _).trans hp₁₂
    have hlt₁ : id < ((new sessions clock).run p₁).nextId :=
      (hled p₁ hp₁).fresh id (List.mem_append_left _ hin)
    have hlt₂ : id < ((new sessions clock).run (p₁ ++ p₂)).nextId := by
      rw [UInt64.lt_iff_toNat_lt] at hlt₁ ⊢
      exact Nat.lt_of_lt_of_le hlt₁ (nextId_run_mono _ (hwrap' p₁) p₂ hp₁₂)
    -- once out of the resting orders it can only come back as a next id, which it is not
    refine gone_run (·.book.restingIds) _ (fun pre c h' x hx => ?_) (hwrap' _) hout hlt₂ p₃ h
    exact mem_restingIds_perform (hwf _ c h') (hcall _ c h') hx
  · -- after a successful cancel the id is neither resting nor logged, and stays so
    have h' : p₁ ++ [Call.cancel id user] ++ p₂ <+: calls := by simpa using h
    have hc₁ : p₁ ++ [Call.cancel id user] <+: calls := (List.prefix_append _ p₂).trans h'
    obtain ⟨hgone, hlt⟩ := (hled p₁ ((List.prefix_append _ _).trans hc₁)).cancel_gone hok
    have hlt' : id < ((new sessions clock).run (p₁ ++ [Call.cancel id user])).nextId := by
      rw [UInt64.lt_iff_toNat_lt] at hlt ⊢
      exact Nat.lt_of_lt_of_le hlt (nextId_run_mono _ (hwrap' p₁) _ hc₁)
    have hfinal := gone_run (·.book.ids) _
      (fun pre c h' x hx => (mem_ids_perform (hwf _ c h') (hcall _ c h') hx).imp_right And.left)
      (hwrap' _) (by simpa using hgone) hlt' p₂ h'
    rw [List.append_assoc, List.singleton_append] at hfinal
    exact fun hlog => hfinal (List.mem_append_right _ hlog)
  · -- a maker that left its ladder was logged, or cancelled by this call
    obtain ⟨logged, hh, -, -, -, hmk⟩ := perform_accounting (hwf pre c h) (hcall pre c h)
    rw [run_append, run_singleton] at hgone ⊢
    rcases hmk o ho with hin | hin | hin
    · exact absurd hin hgone
    · left
      rw [hh, List.map_append]
      exact List.mem_append_right _ hin
    · exact Or.inr hin

/-- The hypotheses of `order_lifecycle` hold of a run with a rest and a market order. -/
theorem order_lifecycle_rest_then_market :
    (∀ s, Call.restore s ∉ [Call.limit .bid 5 100 "alice", Call.market .ask 5 "bob"]) ∧
    [Call.limit .bid 5 100 "alice", Call.market .ask 5 "bob"].length < UInt64.size ∧
    ∀ pre, pre <+: [Call.limit .bid 5 100 "alice", Call.market .ask 5 "bob"] →
      ((new (Sessions.empty 0) 0).run pre).book.ids.Nodup := by
  have hno : ∀ s, Call.restore s ∉ [Call.limit .bid 5 100 "alice", Call.market .ask 5 "bob"] := by
    intro s hs
    simp at hs
  have hlen : [Call.limit .bid 5 100 "alice", Call.market .ask 5 "bob"].length < UInt64.size := by
    decide
  exact ⟨hno, hlen, fun pre h =>
    ((order_lifecycle (Sessions.empty 0) 0 _ hno hlen).1 pre h).1⟩

end Exchange

end Bourse
