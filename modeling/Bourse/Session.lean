/-!
# Sessions

A session table maps each logged-in user to the time of their last activity, in clock
milliseconds. Logging in starts (or restarts) a session at the current time; `tryLogin`
only starts one when none exists and never touches an existing one. Activity refreshes a
session only when it exists.

`expireIdle` ends exactly the sessions idle for longer than the timeout: those whose last
activity `t` has `now - t > timeout`, where a `t` later than `now` counts as not idle.
-/

namespace Bourse

/-- Logged-in users with their last activity, and the idle timeout in milliseconds. -/
structure Sessions where
  timeout : UInt64
  active : List (String × UInt64)
  deriving DecidableEq, Repr

namespace Sessions

/-- A table without sessions. -/
def empty (timeout : UInt64) : Sessions := { timeout, active := [] }

/-- The last activity of a user, when logged in. -/
def lastActivity (s : Sessions) (user : String) : Option UInt64 :=
  (s.active.find? (·.1 == user)).map (·.2)

/-- Whether a user is logged in. -/
def isLoggedIn (s : Sessions) (user : String) : Bool := (s.lastActivity user).isSome

/-- The table with a user's last activity set, the user added when absent. -/
def put (s : Sessions) (user : String) (now : UInt64) : Sessions :=
  if s.isLoggedIn user then
    { s with active := s.active.map fun (u, t) => if u = user then (u, now) else (u, t) }
  else { s with active := s.active ++ [(user, now)] }

/-- Starts or restarts a session. -/
def login (s : Sessions) (user : String) (now : UInt64) : Sessions := s.put user now

/-- Starts a session unless one exists; returns the start time when it started one. -/
def tryLogin (s : Sessions) (user : String) (now : UInt64) : Sessions × Option UInt64 :=
  if s.isLoggedIn user then (s, none) else (s.put user now, some now)

/-- Ends a session; tells whether there was one. -/
def logout (s : Sessions) (user : String) : Sessions × Bool :=
  ({ s with active := s.active.filter (·.1 != user) }, s.isLoggedIn user)

/-- Refreshes a session; returns the new activity time when the user is logged in. -/
def touch (s : Sessions) (user : String) (now : UInt64) : Sessions × Option UInt64 :=
  if s.isLoggedIn user then (s.put user now, some now) else (s, none)

/-- Whether a session with last activity `last` is idle at `now`. -/
def idle (s : Sessions) (now last : UInt64) : Bool :=
  decide (now.toNat - last.toNat > s.timeout.toNat)

/-- Ends the idle sessions; returns their users in byte order. -/
def expireIdle (s : Sessions) (now : UInt64) : Sessions × List String :=
  let expired := (s.active.filter fun (_, t) => s.idle now t).map (·.1)
  ({ s with active := s.active.filter fun (_, t) => !s.idle now t },
   expired.mergeSort fun a b => decide (a ≤ b))

/-- The number of sessions. -/
def count (s : Sessions) : Nat := s.active.length

end Sessions

end Bourse
