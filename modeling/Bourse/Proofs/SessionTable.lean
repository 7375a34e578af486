import Mathlib
import Bourse.Session

/-!
# The session table

A session table answers one question, the last activity of a user
(`Sessions.lastActivity`), and each operation changes that answer in one stated way:

* `lastActivity_put`: setting a user's activity changes that user's answer and nobody
  else's;
* `lastActivity_tryLogin`, `tryLogin_snd`: a conditional login starts a session exactly when
  the user has none, and never alters an existing one;
* `lastActivity_logout`: logging out ends one user's session;
* `Keyed`: every user has at most one entry, and every operation keeps it so;
* `lastActivity_expireIdle`, `mem_expireIdle`, `nodup_expireIdle`: on a keyed table, expiry
  ends exactly the idle sessions, reports each of their users once, and keeps every other
  session with its time.
-/

namespace Bourse

namespace Sessions

variable (s : Sessions) (user u : String) (now : UInt64)

/-- The entry a lookup finds has the user it was looked up by. -/
theorem fst_of_find? {l : List (String × UInt64)} {x : String × UInt64}
    (h : l.find? (·.1 == u) = some x) : x.1 = u := by
  simpa using List.find?_some h

/-- A lookup after rewriting every entry in place, each keeping its user, finds the rewritten
entry of the one found before. -/
theorem find?_map_of_fst {f : String × UInt64 → String × UInt64} (hf : ∀ x, (f x).1 = x.1)
    (l : List (String × UInt64)) : (l.map f).find? (·.1 == u) = (l.find? (·.1 == u)).map f := by
  rw [List.find?_map]
  exact congrArg (fun p => (l.find? p).map f) (funext fun x => by simp [hf x])

/-- A lookup after dropping one user's entries finds nothing for that user and what it found
before for any other. -/
theorem find?_filter_key {α : Type} (l : List (String × α)) :
    (l.filter (·.1 != user)).find? (·.1 == u) =
      if u = user then none else l.find? (·.1 == u) := by
  rw [List.find?_filter]
  by_cases hu : u = user
  · -- no entry of `user` is left to find
    subst hu
    simp only [if_true, List.find?_eq_none]
    intro x _
    simp
  · -- every entry of `u` passes the filter
    simp only [hu, if_false]
    congr 1
    funext x
    by_cases hx : x.1 = u
    · simp [hx, hu]
    · simp [hx]

/-- A user is logged in exactly when the table has an entry for them. -/
theorem isLoggedIn_iff_mem : s.isLoggedIn u = true ↔ u ∈ s.active.map (·.1) := by
  simp only [isLoggedIn, lastActivity, Option.isSome_map, List.mem_map]
  constructor
  · intro h
    obtain ⟨x, hx⟩ := Option.isSome_iff_exists.1 h
    exact ⟨x, List.mem_of_find?_eq_some hx, fst_of_find? u hx⟩
  · rintro ⟨x, hx, rfl⟩
    exact List.find?_isSome.2 ⟨x, hx, by simp⟩

theorem lastActivity_eq_none_iff : s.lastActivity u = none ↔ s.isLoggedIn u = false := by
  simp [isLoggedIn]

/-! ## One user's activity -/

/-- **Setting a user's activity** answers the new time for that user and changes nobody
else's answer. -/
theorem lastActivity_put :
    (s.put user now).lastActivity u = if u = user then some now else s.lastActivity u := by
  unfold put
  by_cases hin : s.isLoggedIn user
  · -- the entries of `user` are restamped in place, and no entry changes its user
    simp only [hin, if_true, lastActivity]
    rw [find?_map_of_fst, Option.map_map]
    · cases hx : s.active.find? (·.1 == u) with
      | none =>
        -- no entry of `u`, so `u` is not the logged-in `user`
        have hne : u ≠ user := by
          rintro rfl
          simp [isLoggedIn, lastActivity, hx] at hin
        simp [hne]
      | some x =>
        have hxu := fst_of_find? u hx
        obtain ⟨a, t⟩ := x
        simp only at hxu
        subst hxu
        by_cases ha : a = user <;> simp [ha]
    · intro x
      obtain ⟨a, t⟩ := x
      by_cases ha : a = user <;> simp [ha]
  · -- a new entry at the end; `user` had none
    have hnone : s.active.find? (·.1 == user) = none :=
      Option.map_eq_none_iff.1 ((lastActivity_eq_none_iff s user).2 (by simpa using hin))
    simp only [hin, Bool.false_eq_true, if_false, lastActivity, List.find?_append]
    by_cases hu : u = user
    · subst hu
      simp [hnone]
    · have hlast : [(user, now)].find? (·.1 == u) = none := by simp [Ne.symm hu]
      simp [hlast, hu]

theorem isLoggedIn_put : (s.put user now).isLoggedIn u = (u == user || s.isLoggedIn u) := by
  unfold isLoggedIn
  rw [lastActivity_put]
  by_cases hu : u = user <;> simp [hu]

/-- **A conditional login** starts a session at `now` exactly when the user has none, and
never alters an existing session or anybody else's. -/
theorem lastActivity_tryLogin :
    (s.tryLogin user now).1.lastActivity u =
      if u = user ∧ s.lastActivity user = none then some now else s.lastActivity u := by
  unfold tryLogin
  by_cases hin : s.isLoggedIn user
  · have hsome : s.lastActivity user ≠ none := by simpa [lastActivity_eq_none_iff] using hin
    simp [hin, hsome]
  · have hnone : s.lastActivity user = none :=
      (lastActivity_eq_none_iff _ _).2 (by simpa using hin)
    simp only [hin, Bool.false_eq_true, if_false, lastActivity_put, hnone, and_true]

/-- A conditional login answers the start time exactly when it started a session. -/
theorem tryLogin_snd :
    (s.tryLogin user now).2 = if s.lastActivity user = none then some now else none := by
  unfold tryLogin
  by_cases hin : s.isLoggedIn user
  · have hsome : s.lastActivity user ≠ none := by simpa [lastActivity_eq_none_iff] using hin
    simp [hin, hsome]
  · have hnone : s.lastActivity user = none :=
      (lastActivity_eq_none_iff _ _).2 (by simpa using hin)
    simp [hin, hnone]

/-- **Logging out** ends the user's session and keeps everybody else's. -/
theorem lastActivity_logout :
    (s.logout user).1.lastActivity u = if u = user then none else s.lastActivity u := by
  simp only [logout, lastActivity, find?_filter_key]
  split <;> rfl

/-- Logging out tells whether there was a session. -/
theorem logout_snd : (s.logout user).2 = s.isLoggedIn user := rfl

/-! ## One entry per user -/

/-- Every user has at most one entry in the table. -/
def Keyed : Prop := (s.active.map (·.1)).Nodup

theorem keyed_empty (timeout : UInt64) : (empty timeout).Keyed := List.nodup_nil

variable {s}

/-- In a keyed table, two entries of one user are the same entry. -/
theorem Keyed.eq_of_fst_eq (h : s.Keyed) {x y : String × UInt64} (hx : x ∈ s.active)
    (hy : y ∈ s.active) (hxy : x.1 = y.1) : x = y :=
  List.inj_on_of_nodup_map h hx hy hxy

/-- In a keyed table, a user's last activity is the time of their entry. -/
theorem Keyed.lastActivity_eq_some_iff (h : s.Keyed) {t : UInt64} :
    s.lastActivity u = some t ↔ (u, t) ∈ s.active := by
  constructor
  · intro ht
    obtain ⟨x, hx, hxt⟩ : ∃ x, s.active.find? (·.1 == u) = some x ∧ x.2 = t := by
      simpa [lastActivity] using ht
    have hxu := fst_of_find? u hx
    obtain ⟨a, t'⟩ := x
    simp only at hxu hxt
    subst hxu hxt
    exact List.mem_of_find?_eq_some hx
  · intro hx
    have hin : s.isLoggedIn u = true := (isLoggedIn_iff_mem s u).2 (List.mem_map_of_mem hx)
    obtain ⟨y, hy⟩ := Option.isSome_iff_exists.1 (show (s.active.find? (·.1 == u)).isSome by
      simpa [isLoggedIn, lastActivity] using hin)
    have hyx : y = (u, t) :=
      h.eq_of_fst_eq (List.mem_of_find?_eq_some hy) hx (fst_of_find? u hy)
    simp [lastActivity, hy, hyx]

theorem Keyed.put (h : s.Keyed) : (s.put user now).Keyed := by
  unfold Sessions.put Keyed
  by_cases hin : s.isLoggedIn user
  · -- restamping keeps every entry's user
    have hkeys : (fun x : String × UInt64 => x.1) ∘
        (fun (x : String × UInt64) => if x.1 = user then (x.1, now) else (x.1, x.2)) =
        fun x => x.1 := by
      funext x
      by_cases ha : x.1 = user <;> simp [ha]
    simp only [hin, if_true, List.map_map]
    rw [hkeys]
    exact h
  · have hnot : user ∉ s.active.map (·.1) := fun hm => hin ((isLoggedIn_iff_mem s user).2 hm)
    simp only [hin, Bool.false_eq_true, if_false, List.map_append, List.map_cons, List.map_nil]
    refine List.nodup_append.2 ⟨h, List.nodup_singleton _, ?_⟩
    rintro a ha b hb rfl
    exact hnot (List.mem_singleton.1 hb ▸ ha)

theorem Keyed.tryLogin (h : s.Keyed) : (s.tryLogin user now).1.Keyed := by
  unfold Sessions.tryLogin
  split
  · exact h
  · exact h.put user now

theorem Keyed.touch (h : s.Keyed) : (s.touch user now).1.Keyed := by
  unfold Sessions.touch
  split
  · exact h.put user now
  · exact h

theorem Keyed.logout (h : s.Keyed) : (s.logout user).1.Keyed :=
  (List.filter_sublist.map _).nodup h

theorem Keyed.expireIdle (h : s.Keyed) : (s.expireIdle now).1.Keyed :=
  (List.filter_sublist.map _).nodup h

/-! ## Expiry -/

/-- **Expiry keeps exactly the sessions that are not idle**, each with its time. -/
theorem lastActivity_expireIdle (h : s.Keyed) :
    (s.expireIdle now).1.lastActivity u = (s.lastActivity u).filter (fun t => !s.idle now t) := by
  apply Option.ext
  intro t
  rw [(h.expireIdle now).lastActivity_eq_some_iff, Option.filter_eq_some_iff,
    h.lastActivity_eq_some_iff]
  simp [expireIdle]

/-- **Expiry reports exactly the idle users.** -/
theorem mem_expireIdle (h : s.Keyed) :
    u ∈ (s.expireIdle now).2 ↔ ∃ t, s.lastActivity u = some t ∧ s.idle now t = true := by
  simp only [expireIdle, List.mem_mergeSort, List.mem_map, List.mem_filter]
  constructor
  · rintro ⟨⟨a, t⟩, ⟨hm, hi⟩, rfl⟩
    exact ⟨t, (h.lastActivity_eq_some_iff a).2 hm, hi⟩
  · rintro ⟨t, ht, hi⟩
    exact ⟨(u, t), ⟨(h.lastActivity_eq_some_iff u).1 ht, hi⟩, rfl⟩

/-- **Expiry reports each user once.** -/
theorem nodup_expireIdle (h : s.Keyed) : (s.expireIdle now).2.Nodup := by
  simp only [expireIdle]
  exact (List.mergeSort_perm _ _).nodup_iff.2 ((List.filter_sublist.map _).nodup h)

end Sessions

end Bourse
