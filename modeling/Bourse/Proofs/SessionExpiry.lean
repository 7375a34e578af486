import Mathlib
import Bourse.Server
import Bourse.Http.Service
import Bourse.Proofs.SessionTable
import Bourse.Proofs.Refusal

/-!
# Idle expiry over every run of the session table

The session table changes by five operations, each at a clock value of its own, so a run of
them covers every movement of the clock, backwards included (`Sessions.Op`, `Sessions.run`).
Every run from an empty table keeps one entry per user (`Sessions.keyed_run`), and on such a
table:

* `Sessions.idle_iff`: a session is idle exactly when its last activity lies more than the
  timeout before now, in exact milliseconds, so a last activity after now is never idle;
* `Sessions.expireIdle_exact`: expiry ends and reports exactly the idle sessions, each user
  once, and keeps every other session with its time;
* `Notifier.addressOf_foldl_unregister`, `Http.Service.sweep_exact`: the sweep ends the idle
  sessions at the exchange's clock and forgets exactly their users' addresses;
* `openExchange_timeout`: the server's table times out after the configured seconds in
  milliseconds modulo 2^64, which is the configured time only while it is below 2^64 ms.
-/

namespace Bourse

namespace Sessions

/-- One operation on the session table, at a clock value of its own. -/
inductive Op where
  | login (user : String) (now : UInt64)
  | tryLogin (user : String) (now : UInt64)
  | logout (user : String)
  | touch (user : String) (now : UInt64)
  | expireIdle (now : UInt64)
  deriving DecidableEq, Repr

/-- The table after one operation. -/
def perform (s : Sessions) : Op → Sessions
  | .login user now => s.login user now
  | .tryLogin user now => (s.tryLogin user now).1
  | .logout user => (s.logout user).1
  | .touch user now => (s.touch user now).1
  | .expireIdle now => (s.expireIdle now).1

/-- The table after a run of operations, made in order. -/
def run (s : Sessions) (ops : List Op) : Sessions := ops.foldl perform s

variable {s : Sessions}

theorem timeout_put (user : String) (now : UInt64) : (s.put user now).timeout = s.timeout := by
  unfold put
  split <;> rfl

theorem timeout_perform (op : Op) : (s.perform op).timeout = s.timeout := by
  cases op with
  | login user now => exact timeout_put user now
  | tryLogin user now =>
    simp only [perform, tryLogin]
    split
    · rfl
    · exact timeout_put user now
  | logout user => rfl
  | touch user now =>
    simp only [perform, touch]
    split
    · exact timeout_put user now
    · rfl
  | expireIdle now => rfl

theorem Keyed.perform (h : s.Keyed) : ∀ op : Op, (s.perform op).Keyed
  | .login user now => h.put user now
  | .tryLogin user now => h.tryLogin user now
  | .logout user => h.logout user
  | .touch user now => h.touch user now
  | .expireIdle now => h.expireIdle now

/-- A run keeps the timeout and one entry per user. -/
theorem Keyed.run (h : s.Keyed) (ops : List Op) :
    (s.run ops).Keyed ∧ (s.run ops).timeout = s.timeout := by
  induction ops generalizing s with
  | nil => exact ⟨h, rfl⟩
  | cons op ops ih =>
    obtain ⟨hkeyed, htimeout⟩ := ih (h.perform op)
    exact ⟨hkeyed, htimeout.trans (timeout_perform op)⟩

theorem keyed_run (timeout : UInt64) (ops : List Op) :
    ((empty timeout).run ops).Keyed ∧ ((empty timeout).run ops).timeout = timeout :=
  (keyed_empty timeout).run ops

/-- **Idleness in exact milliseconds**: a session is idle when its last activity lies more
than the timeout before now; one after now is not. -/
theorem idle_iff {now t : UInt64} :
    s.idle now t = true ↔ t.toNat + s.timeout.toNat < now.toNat := by
  simp only [idle, decide_eq_true_eq]
  omega

/-- **Expiry is exact** on a keyed table: it reports each idle user once and no other, and
keeps every other session with its time. -/
theorem expireIdle_exact (h : s.Keyed) (now : UInt64) :
    (∀ u, u ∈ (s.expireIdle now).2 ↔
      ∃ t, s.lastActivity u = some t ∧ t.toNat + s.timeout.toNat < now.toNat) ∧
    (s.expireIdle now).2.Nodup ∧
    ∀ u, (s.expireIdle now).1.lastActivity u =
      (s.lastActivity u).filter (fun t => !decide (t.toNat + s.timeout.toNat < now.toNat)) := by
  have hidle : (fun t => !s.idle now t) =
      fun t => !decide (t.toNat + s.timeout.toNat < now.toNat) := by
    funext t
    rw [Bool.eq_iff_iff.2 (idle_iff.trans decide_eq_true_iff.symm)]
  refine ⟨fun u => ?_, nodup_expireIdle now h, fun u => ?_⟩
  · rw [mem_expireIdle u now h]
    simp only [idle_iff]
  · rw [lastActivity_expireIdle u now h, hidle]

end Sessions

namespace Notifier

theorem addressOf_unregister (n : Notifier) (user u : String) :
    (n.unregister user).addressOf u = if u = user then none else n.addressOf u := by
  simp only [unregister, addressOf, Sessions.find?_filter_key]
  split <;> rfl

/-- Unregistering a list of users forgets exactly their addresses. -/
theorem addressOf_foldl_unregister (n : Notifier) (users : List String) (u : String) :
    (users.foldl unregister n).addressOf u = if u ∈ users then none else n.addressOf u := by
  induction users generalizing n with
  | nil => simp
  | cons user users ih =>
    rw [List.foldl_cons, ih, addressOf_unregister]
    by_cases hu : u = user <;> by_cases hin : u ∈ users <;> simp [hu, hin]

end Notifier

namespace Http.Service

/-- **The sweep is exact** on a keyed table: it ends and reports the sessions idle at the
exchange's clock, each user once, keeps every other session with its time, and forgets the
addresses of exactly the users it reports. -/
theorem sweep_exact {svc : Service} (h : svc.exchange.sessions.Keyed) :
    (∀ u, u ∈ svc.sweep.2 ↔ ∃ t, svc.exchange.sessions.lastActivity u = some t ∧
      t.toNat + svc.exchange.sessions.timeout.toNat < svc.exchange.clock.toNat) ∧
    svc.sweep.2.Nodup ∧
    (∀ u, svc.sweep.1.exchange.sessions.lastActivity u =
      (svc.exchange.sessions.lastActivity u).filter (fun t =>
        !decide (t.toNat + svc.exchange.sessions.timeout.toNat < svc.exchange.clock.toNat))) ∧
    ∀ u, svc.sweep.1.notifier.addressOf u =
      if u ∈ svc.sweep.2 then none else svc.notifier.addressOf u := by
  obtain ⟨hmem, hnodup, hkept⟩ := Sessions.expireIdle_exact h svc.exchange.clock
  exact ⟨hmem, hnodup, hkept, fun u => Notifier.addressOf_foldl_unregister _ _ u⟩

end Http.Service

theorem Exchange.sessions_onFile (sessions : Sessions) (clock : UInt64) (f : SnapshotFile) :
    (Exchange.onFile sessions clock f).sessions = sessions := by
  unfold Exchange.onFile
  split <;> rfl

/-- **The configured timeout wraps**: the server's table times out after the configured
seconds in milliseconds modulo 2^64. -/
theorem openExchange_timeout (settings : Config.Settings) (file : SnapshotFile) :
    (openExchange settings file).sessions.timeout.toNat =
      settings.sessionTimeout * 1000 % 2 ^ 64 := by
  simp [openExchange, Exchange.sessions_onFile, Sessions.empty]

/-- **Idle expiry removes exactly the idle sessions.**  Along every run of the session table
from an empty one, at any clock values: expiry at `now` ends and reports, once each, exactly
the users whose last activity `t` has `t + timeout < now` in exact milliseconds, so a `t`
after `now` is never idle, and keeps every other session with its time; a conditional login
starts a session exactly when there is none and alters no existing one; a refresh stores and
answers `now` exactly when the user has a session. The sweep does the same at the exchange's
clock and forgets exactly the expired users' addresses. The timeout the server configures is
its seconds in milliseconds modulo 2^64: the exact time only while that is below 2^64. -/
theorem session_expiry_law (timeout : UInt64) (ops : List Sessions.Op) (now : UInt64)
    (user : String) :
    let s := (Sessions.empty timeout).run ops
    s.timeout = timeout ∧
    (∀ u, u ∈ (s.expireIdle now).2 ↔
      ∃ t, s.lastActivity u = some t ∧ t.toNat + timeout.toNat < now.toNat) ∧
    (s.expireIdle now).2.Nodup ∧
    (∀ u, (s.expireIdle now).1.lastActivity u =
      (s.lastActivity u).filter (fun t => !decide (t.toNat + timeout.toNat < now.toNat))) ∧
    (∀ t, now ≤ t → s.idle now t = false) ∧
    (∀ u, (s.tryLogin user now).1.lastActivity u =
      if u = user ∧ s.lastActivity user = none then some now else s.lastActivity u) ∧
    (s.tryLogin user now).2 = (if s.lastActivity user = none then some now else none) ∧
    (∀ u, (s.touch user now).1.lastActivity u =
      if u = user ∧ s.isLoggedIn user then some now else s.lastActivity u) ∧
    (s.touch user now).2 = (if s.isLoggedIn user then some now else none) ∧
    (∀ svc : Http.Service, svc.exchange.sessions.Keyed →
      (∀ u, u ∈ svc.sweep.2 ↔ ∃ t, svc.exchange.sessions.lastActivity u = some t ∧
        t.toNat + svc.exchange.sessions.timeout.toNat < svc.exchange.clock.toNat) ∧
      svc.sweep.2.Nodup ∧
      (∀ u, svc.sweep.1.exchange.sessions.lastActivity u =
        (svc.exchange.sessions.lastActivity u).filter (fun t =>
          !decide (t.toNat + svc.exchange.sessions.timeout.toNat < svc.exchange.clock.toNat))) ∧
      ∀ u, svc.sweep.1.notifier.addressOf u =
        if u ∈ svc.sweep.2 then none else svc.notifier.addressOf u) ∧
    ∀ (settings : Config.Settings) (file : SnapshotFile),
      (openExchange settings file).sessions.timeout.toNat =
        settings.sessionTimeout * 1000 % 2 ^ 64 ∧
      ((openExchange settings file).sessions.timeout.toNat = settings.sessionTimeout * 1000 ↔
        settings.sessionTimeout * 1000 < 2 ^ 64) := by
  intro s
  obtain ⟨hkeyed, htimeout⟩ := Sessions.keyed_run timeout ops
  obtain ⟨hmem, hnodup, hkept⟩ := Sessions.expireIdle_exact hkeyed now
  rw [htimeout] at hmem hkept
  refine ⟨htimeout, hmem, hnodup, hkept, fun t hle => ?_,
    fun u => Sessions.lastActivity_tryLogin s user u now, Sessions.tryLogin_snd s user now,
    fun u => Sessions.lastActivity_touch s user now u, Sessions.touch_snd s user now,
    fun _ h => Http.Service.sweep_exact h, fun settings file => ?_⟩
  · -- a last activity after now lies before no time past it
    have hle' : now.toNat ≤ t.toNat := UInt64.le_iff_toNat_le.1 hle
    rw [← Bool.not_eq_true, Sessions.idle_iff]
    omega
  · have hwrap := openExchange_timeout settings file
    refine ⟨hwrap, ?_⟩
    rw [hwrap]
    constructor
    · intro h
      rw [← h]
      exact Nat.mod_lt _ (Nat.two_pow_pos 64)
    · exact Nat.mod_eq_of_lt

/-- Two users log in 1.5 seconds apart under a one-second timeout. -/
def twoLogins : List Sessions.Op := [.login "alice" 0, .login "bob" 1500]

/-- At 2 seconds the first session has been idle past the timeout and the second has not. -/
theorem session_expiry_law_two_logins :
    "alice" ∈ (((Sessions.empty 1000).run twoLogins).expireIdle 2000).2 ∧
      "bob" ∉ (((Sessions.empty 1000).run twoLogins).expireIdle 2000).2 := by
  have h := (session_expiry_law 1000 twoLogins 2000 "alice").2.1
  refine ⟨(h "alice").2 ⟨0, by decide, by decide⟩, fun hbob => ?_⟩
  obtain ⟨t, ht, hlt⟩ := (h "bob").1 hbob
  have hbob : ((Sessions.empty 1000).run twoLogins).lastActivity "bob" = some 1500 := by decide
  obtain rfl : t = 1500 := Option.some.inj (ht.symm.trans hbob)
  exact absurd hlt (by decide)

/-- A timeout of 18446744073709552 seconds, which the server's settings accept, wraps to
384 milliseconds: a user logged in at 0 is expired at 385, far within the configured time. -/
theorem configured_timeout_wraps :
    let settings := Config.Settings.load [("CROSS_SESSION_TIMEOUT_SECS", "18446744073709552")] none
    let s := (openExchange settings ⟨.fresh, none⟩).sessions
    settings.sessionTimeout = 18446744073709552 ∧ 385 ≤ settings.sessionTimeout * 1000 ∧
      s.timeout = 384 ∧ ((s.login "alice" 0).expireIdle 385).2 = ["alice"] := by
  decide +kernel

end Bourse
