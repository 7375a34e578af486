import Bourse.Proofs.SnapshotFile
import Bourse.Proofs.Capture

/-!
# Persist, then reopen

`Exchange.persist` saves the exchange's snapshot to its file, and `Exchange.onFile` opens an
exchange on a file: it loads the snapshot there and restores it. For every state reached from
an exchange opened on a file, within the limits under which ids stay fresh, reopening the
file that a successful persist left gives back the same book and the same next id, hence the
same snapshot.

* `Book.WF.capture_keyed`: the price maps of a well-formed book's capture are keyed in
  ascending order, so its file text reads back;
* `floor_snapshot`: the floor of the snapshot of a state with fresh ids is its next id;
* `persist_saves`: a persist that succeeds saved the snapshot to the file it leaves;
* `reopen_of_fresh`: for a state with a well-formed book and fresh ids, reopening after a
  persist restores the book and the next id;
* `reopen_after_persist`: so it does after every run from an exchange opened on a file, the
  run keeping both (`wf_fresh_run`).
-/

namespace Bourse

theorem Ladder.WF.keyed {ld : Ladder} (h : ld.WF) :
    (ld.entries.map (·.1)).Pairwise (· < ·) := by
  simp only [Ladder.entries, List.map_map]
  exact List.pairwise_map.2 h.ascending

theorem Book.WF.capture_keyed {b : Book} (h : b.WF) (n : UInt64) : (b.capture n).Keyed := by
  intro m hm
  simp only [Book.capture, List.mem_cons, List.not_mem_nil, or_false] at hm
  rcases hm with rfl | rfl | rfl | rfl
  · exact h.asks.keyed
  · exact h.bids.keyed
  · exact h.stopAsks.keyed
  · exact h.stopBids.keyed

namespace Exchange

/-- Raising a word past ids that all lie below it leaves it as it is. -/
theorem foldl_raise_of_lt {xs : List UInt64} {m : UInt64} (h : ∀ x ∈ xs, x < m) :
    xs.foldl (fun m x => max m (x + 1)) m = m := by
  induction xs with
  | nil => rfl
  | cons x xs ih =>
    have hx := UInt64.lt_iff_toNat_lt.1 (h x List.mem_cons_self)
    have hm := m.toNat_lt
    have hmax : max m (x + 1) = m := by
      apply UInt64.toNat_inj.1
      rw [UInt64.toNat_max, UInt64.toNat_add, UInt64.toNat_one, Nat.mod_eq_of_lt (by omega)]
      omega
    rw [List.foldl_cons, hmax, ih (fun y hy => h y (List.mem_cons_of_mem _ hy))]

/-- The floor of the snapshot of a state whose ids are fresh is its next id. -/
theorem floor_snapshot {e : Exchange} (h : e.Fresh) : e.snapshot.floor = e.nextId := by
  have hids : ∀ x ∈ e.book.ids, x.toNat + 1 < UInt64.size := fun x hx => by
    have hx' := UInt64.lt_iff_toNat_lt.1 (h x hx)
    have hm := e.nextId.toNat_lt
    simp only [UInt64.size]
    omega
  rw [snapshot, Book.floor_capture _ _ hids, foldl_raise_of_lt h]

/-- A persist that succeeds and leaves a file saved the snapshot there. -/
theorem persist_saves {e e' : Exchange} (hp : e.persist = .ok e') {f : SnapshotFile}
    (hf : e'.store = some f) : ∃ f₀, e.store = some f₀ ∧ f₀.save e.snapshot = .ok f := by
  unfold persist at hp
  split at hp
  · -- no file: nothing is saved and none is left
    cases hp
    rename_i hnone
    rw [hnone] at hf
    cases hf
  · rename_i f₀ hsome
    cases hs : f₀.save e.snapshot with
    | error err =>
      rw [hs] at hp
      cases hp
    | ok f₁ =>
      rw [hs] at hp
      simp only [bind, Except.bind, pure, Except.pure, Except.ok.injEq] at hp
      subst hp
      simp only [Option.some.injEq] at hf
      exact ⟨f₀, hsome, hf ▸ hs⟩

/-- Reopening after a persist restores the book and the next id of a state whose book is well
formed and whose ids lie below its sequence. -/
theorem reopen_of_fresh {e e' : Exchange} (hwf : e.book.WF) (hfresh : e.Fresh)
    (hp : e.persist = .ok e') {f : SnapshotFile} (hf : e'.store = some f) (sessions : Sessions)
    (clock : UInt64) :
    (onFile sessions clock f).book = e.book ∧ (onFile sessions clock f).nextId = e.nextId ∧
      (onFile sessions clock f).snapshot = e.snapshot := by
  obtain ⟨f₀, -, hsave⟩ := persist_saves hp hf
  obtain ⟨hplace, hcontents⟩ := SnapshotFile.save_eq_ok hsave
  -- the file holds the text of the snapshot, which reads back since a book's maps are keyed
  have hload : f.load = .ok (some e.snapshot) :=
    SnapshotFile.load_of_fileText (hwf.capture_keyed e.nextId) hplace hcontents
  have hbook : (onFile sessions clock f).book = e.book := by
    simp only [onFile, hload, restore]
    exact Book.restore_capture hwf e.nextId
  -- the id sequence is raised to the floor, which the fresh ids leave at the next id
  have hnext : (onFile sessions clock f).nextId = e.nextId := by
    simp only [onFile, hload, restore, new, floor_snapshot hfresh]
    apply UInt64.toNat_inj.1
    simp [UInt64.toNat_max]
  refine ⟨hbook, hnext, ?_⟩
  rw [snapshot, snapshot, hbook, hnext]

/-- **Persist, then reopen.**  Take an exchange opened on any snapshot file whose snapshot, if
it loads one, holds no last id, and any run of calls in which the sequence never wraps and no
restored snapshot holds the last id.  When the persist of the state reached succeeds, the
exchange opened on the file it leaves, with any session table and clock, has the same book
(the four ladders level by level, their queues in order with their totals, the resting count
and the whole history), the same next id, not merely one at least as large, and so the same
snapshot: whatever the length of the history and whatever characters the user ids hold. -/
theorem reopen_after_persist {sessions : Sessions} {clock : UInt64} {e₀ : Exchange}
    (hstart : ∃ f₀, e₀ = onFile sessions clock f₀ ∧
      ∀ s, f₀.load = .ok (some s) → ∀ o ∈ s.allOrders, o.id.toNat + 1 < UInt64.size)
    {calls : List Call}
    (hwrap : ∀ pre c, pre ++ [c] <+: calls → (e₀.run pre).takesId c →
      (e₀.run pre).nextId.toNat + 1 < UInt64.size)
    (hsnap : ∀ s, Call.restore s ∈ calls → ∀ o ∈ s.allOrders, o.id.toNat + 1 < UInt64.size)
    {e' : Exchange} (hp : (e₀.run calls).persist = .ok e') {f : SnapshotFile}
    (hf : e'.store = some f) (sessions' : Sessions) (clock' : UInt64) :
    (onFile sessions' clock' f).book = (e₀.run calls).book ∧
      (onFile sessions' clock' f).nextId = (e₀.run calls).nextId ∧
      (onFile sessions' clock' f).snapshot = (e₀.run calls).snapshot := by
  -- the whole run keeps the book well formed and the ids fresh
  obtain ⟨hwf, hfresh⟩ := wf_fresh_run (Or.inr hstart) hwrap hsnap calls (List.prefix_refl _)
  exact reopen_of_fresh hwf hfresh hp hf sessions' clock'

/-- A file that does not exist yet, on which an exchange takes a bid. -/
def freshFile : SnapshotFile := { place := .fresh, contents := none }

/-- An exchange opened on a file that does not exist yet takes a bid and persists; opened
again on the file left, it has the same book, next id and snapshot. -/
theorem reopen_after_persist_one_bid :
    let e := (onFile (Sessions.empty 0) 0 freshFile).run [.limit .bid 5 100 "alice"]
    let f : SnapshotFile := { place := .fresh, contents := some e.snapshot.fileText }
    e.persist = .ok { e with store := some f } ∧
      (onFile (Sessions.empty 0) 0 f).book = e.book ∧
      (onFile (Sessions.empty 0) 0 f).nextId = e.nextId ∧
      (onFile (Sessions.empty 0) 0 f).snapshot = e.snapshot := by
  intro e f
  -- the only prefix before a call is the empty one, on the new exchange
  have hwrap : ∀ pre c, pre ++ [c] <+: [Call.limit .bid 5 100 "alice"] →
      ((onFile (Sessions.empty 0) 0 freshFile).run pre).takesId c →
      ((onFile (Sessions.empty 0) 0 freshFile).run pre).nextId.toNat + 1 < UInt64.size := by
    intro pre c h _
    have hlen := h.length_le
    simp only [List.length_append, List.length_singleton] at hlen
    have hnil : pre = [] := List.length_eq_zero_iff.1 (by simpa using hlen)
    subst hnil
    decide
  have hp : e.persist = .ok { e with store := some f } := rfl
  exact ⟨hp, reopen_after_persist ⟨freshFile, rfl, fun s hs => by cases hs⟩ hwrap
    (fun s hs => by simp at hs) hp rfl _ _⟩

end Exchange

end Bourse
