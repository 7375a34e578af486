import Bourse.Proofs.Calls
import Bourse.Proofs.SessionTable

/-!
# Refused calls leave no trace

A call to the exchange is refused before it changes anything: an insert checks its size and
then its price before it takes an id, a cancel looks the order up and checks its owner and
its state before it removes it, and a price-history query reads the month before it touches
the caller's session.  Since a call's steps run in order and what a step changed stays
changed when a later step refuses, this order is what makes a refused call leave the book,
the id sequence and the session table as they were (`perform_of_refused`, with the refusal
laws `insert_eq_error_iff`, `market_eq_error_iff`, `cancel_eq_error` and
`priceHistory_eq_error_iff` of `Bourse.Proofs.Calls`).  An accepted call of a user refreshes
that user's session, when there is one, and nobody else's; a trading call reports the
refreshed time in its answer.

* `Sessions.lastActivity_touch`: a refresh sets one user's last activity and keeps every
  other user's;
* `sessions_perform_of_accepts`, `reported_of_accepts`: what an accepted call does to the
  session table and what it reports;
* `refused_calls_leave_no_trace` states all of it for every state of the exchange.
-/

/-- The value a computation returned, none when it failed. -/
def EStateM.Result.value? : EStateM.Result ε σ α → Option α
  | .ok a _ => some a
  | .error _ _ => none

namespace Bourse

namespace Sessions

/-- **A refresh touches one session.**  Refreshing `user` at `now` sets that user's last
activity to `now` when the user is logged in; every other user keeps theirs, and a user
without a session stays without one. -/
theorem lastActivity_touch (s : Sessions) (user : String) (now : UInt64) (u : String) :
    (s.touch user now).1.lastActivity u =
      if u = user ∧ s.isLoggedIn user then some now else s.lastActivity u := by
  unfold touch
  by_cases hin : s.isLoggedIn user
  · -- a logged-in user's activity is set as `put` sets it
    simp only [hin, if_true, and_true, lastActivity_put]
  · simp [hin]

/-- A refresh answers with the new time exactly when the user is logged in. -/
theorem touch_snd (s : Sessions) (user : String) (now : UInt64) :
    (s.touch user now).2 = if s.isLoggedIn user then some now else none := by
  unfold touch
  split <;> rfl

end Sessions

/-- The user a call speaks for: the caller of a trade, a cancel or a price-history query. -/
def Call.caller? : Call → Option String
  | .limit _ _ _ user | .stop _ _ _ user | .market _ _ user | .cancel _ user
  | .priceHistory _ user => some user
  | _ => none

/-- Whether a call is a trading call, one that answers with an acknowledgement. -/
def Call.trades : Call → Bool
  | .limit .. | .stop .. | .market .. | .cancel .. => true
  | _ => false

namespace Exchange

/-- The session time an accepted trading call reports in its acknowledgement. -/
def reported (e : Exchange) : Call → Option (Option UInt64)
  | .limit side size price user => (e.limit side size price user).value?.map (·.session)
  | .stop side size trigger user => (e.stop side size trigger user).value?.map (·.session)
  | .market side size user => (e.market side size user).value?.map (·.1.session)
  | .cancel id user => (e.cancel id user).value?.map (·.session)
  | _ => none

/-! ## What an accepted call leaves -/

/-- An accepted insert, market order or cancel leaves the session table refreshed for its
caller and answers with the refreshed time. -/
theorem insert_eq_ok_sessions {e e' : Exchange} {file : Book → Order → Book}
    {make : UInt64 → Order} {size price : UInt64} {user : String} {a : Ack UInt64}
    (h : e.insert file make size price user = .ok a e') :
    e'.sessions = (e.sessions.touch user e.clock).1 ∧ a.session = (e.sessions.touch user e.clock).2 := by
  rw [insert_eq] at h
  by_cases hs : size = 0
  · simp [hs] at h
  by_cases hp : price = 0
  · simp [hs, hp] at h
  simp only [hs, hp, if_false, EStateM.Result.ok.injEq] at h
  obtain ⟨rfl, rfl⟩ := h
  exact ⟨rfl, rfl⟩

theorem market_eq_ok_sessions {e e' : Exchange} {side : Side} {size : UInt64} {user : String}
    {a : Ack (Option UInt64)} {fs : List Fill} (h : e.market side size user = .ok (a, fs) e') :
    e'.sessions = (e.sessions.touch user e.clock).1 ∧ a.session = (e.sessions.touch user e.clock).2 := by
  rw [market_eq] at h
  by_cases hs : size = 0
  · simp [hs] at h
  simp only [hs, if_false] at h
  split at h
  all_goals
    simp only [EStateM.Result.ok.injEq, Prod.mk.injEq] at h
    obtain ⟨⟨rfl, -⟩, rfl⟩ := h
    exact ⟨rfl, rfl⟩

theorem cancel_eq_ok_sessions {e e' : Exchange} {id : UInt64} {user : String} {a : Ack UInt64}
    (h : e.cancel id user = .ok a e') :
    e'.sessions = (e.sessions.touch user e.clock).1 ∧ a.session = (e.sessions.touch user e.clock).2 := by
  rw [cancel_eq] at h
  split at h
  · cases h
  split at h
  · cases h
  split at h
  · cases h
  split at h
  · cases h
  simp only [EStateM.Result.ok.injEq] at h
  obtain ⟨rfl, rfl⟩ := h
  exact ⟨rfl, rfl⟩

/-- **An accepted call refreshes its caller's session.** -/
theorem sessions_perform_of_accepts {e : Exchange} {c : Call} {user : String}
    (hc : c.caller? = some user) (h : e.accepts c = true) :
    (e.perform c).sessions = (e.sessions.touch user e.clock).1 := by
  cases c with
  | limit side size price u =>
    cases hc
    obtain ⟨a, e', hr⟩ := EStateM.Result.eq_ok_of_toBool h
    simpa [perform, hr, EStateM.Result.state] using (insert_eq_ok_sessions hr).1
  | stop side size trigger u =>
    cases hc
    obtain ⟨a, e', hr⟩ := EStateM.Result.eq_ok_of_toBool h
    simpa [perform, hr, EStateM.Result.state] using (insert_eq_ok_sessions hr).1
  | market side size u =>
    cases hc
    obtain ⟨⟨a, fs⟩, e', hr⟩ := EStateM.Result.eq_ok_of_toBool h
    simpa [perform, hr, EStateM.Result.state] using (market_eq_ok_sessions hr).1
  | cancel id u =>
    cases hc
    obtain ⟨a, e', hr⟩ := EStateM.Result.eq_ok_of_toBool h
    simpa [perform, hr, EStateM.Result.state] using (cancel_eq_ok_sessions hr).1
  | priceHistory code u =>
    cases hc
    obtain ⟨days, e', hr⟩ := EStateM.Result.eq_ok_of_toBool h
    simpa [perform, hr, EStateM.Result.state] using (priceHistory_eq_ok hr).2.2
  | persist => cases hc
  | restore s => cases hc
  | setClock now => cases hc

/-- **An accepted trading call reports its caller's refreshed session.** -/
theorem reported_of_accepts {e : Exchange} {c : Call} {user : String}
    (hc : c.caller? = some user) (ht : c.trades = true) (h : e.accepts c = true) :
    e.reported c = some (e.sessions.touch user e.clock).2 := by
  cases c with
  | limit side size price u =>
    cases hc
    obtain ⟨a, e', hr⟩ := EStateM.Result.eq_ok_of_toBool h
    simp [reported, hr, EStateM.Result.value?, (insert_eq_ok_sessions hr).2]
  | stop side size trigger u =>
    cases hc
    obtain ⟨a, e', hr⟩ := EStateM.Result.eq_ok_of_toBool h
    simp [reported, hr, EStateM.Result.value?, (insert_eq_ok_sessions hr).2]
  | market side size u =>
    cases hc
    obtain ⟨⟨a, fs⟩, e', hr⟩ := EStateM.Result.eq_ok_of_toBool h
    simp [reported, hr, EStateM.Result.value?, (market_eq_ok_sessions hr).2]
  | cancel id u =>
    cases hc
    obtain ⟨a, e', hr⟩ := EStateM.Result.eq_ok_of_toBool h
    simp [reported, hr, EStateM.Result.value?, (cancel_eq_ok_sessions hr).2]
  | priceHistory code u => cases ht
  | persist => cases hc
  | restore s => cases hc
  | setClock now => cases hc

/-- **Failed calls leave no trace.**  For every state of the exchange: an insert is refused
for size 0, and then, for a limit or stop order, for price 0, and for nothing else; a cancel
only as not found, not the caller's or already executed; a price-history query exactly when
its month code is malformed, invalid or in the future.  Each refusal leaves the state the call
was made in, since every check comes before the call's first change, and so does a refused
call of any kind: the book, the id sequence and the session table, the caller's last activity
with them, are as they were.  An accepted trading call or price-history query sets its
caller's last activity to the clock when the caller is logged in and touches no other
session, and a trading call reports that time, or none for a caller without a session. -/
theorem refused_calls_leave_no_trace (e : Exchange) :
    (∀ side size price user err e', e.limit side size price user = .error err e' ↔
      e' = e ∧ ((size = 0 ∧ err = .invalidSize) ∨ (size ≠ 0 ∧ price = 0 ∧ err = .invalidPrice))) ∧
    (∀ side size trigger user err e', e.stop side size trigger user = .error err e' ↔
      e' = e ∧ ((size = 0 ∧ err = .invalidSize) ∨
        (size ≠ 0 ∧ trigger = 0 ∧ err = .invalidPrice))) ∧
    (∀ side size user err e', e.market side size user = .error err e' ↔
      e' = e ∧ size = 0 ∧ err = .invalidSize) ∧
    (∀ id user err e', e.cancel id user = .error err e' →
      e' = e ∧ (err = .notFound id ∨ err = .notOwner id ∨ err = .alreadyExecuted id)) ∧
    (∀ code user err e', e.priceHistory code user = .error err e' ↔
      e' = e ∧ MonthCode.parseNotFuture code e.clock = .error err) ∧
    (∀ c, e.accepts c = false → e.perform c = e) ∧
    (∀ c user, c.caller? = some user → e.accepts c = true → ∀ u,
      (e.perform c).sessions.lastActivity u =
        if u = user ∧ e.sessions.isLoggedIn user then some e.clock else e.sessions.lastActivity u) ∧
    (∀ c user, c.caller? = some user → c.trades = true → e.accepts c = true →
      e.reported c = some (if e.sessions.isLoggedIn user then some e.clock else none)) := by
  refine ⟨fun _ _ _ _ _ _ => insert_eq_error_iff, fun _ _ _ _ _ _ => insert_eq_error_iff,
    fun _ _ _ _ _ => market_eq_error_iff, fun _ _ _ _ h => cancel_eq_error h,
    fun _ _ _ _ => priceHistory_eq_error_iff, fun _ h => perform_of_refused h,
    fun c user hc h u => ?_, fun c user hc ht h => ?_⟩
  · rw [sessions_perform_of_accepts hc h, Sessions.lastActivity_touch]
  · rw [reported_of_accepts hc ht h, Sessions.touch_snd]

end Exchange

end Bourse
