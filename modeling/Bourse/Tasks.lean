import Bourse.Http.Service
/-!
# Periodic tasks

Two jobs run beside the service on a virtual clock that starts at 0 and moves only when the
service sleeps:

* the sweeper ends idle sessions (and forgets their users' addresses) at 0 and every
  `sweepEvery` after;
* the writer saves the snapshot at `writeEvery` and every `writeEvery` after; a failed save
  is skipped.

While the clock moves, nothing else changes, so the ticks that fall due in one sleep are as
good as one: a repeated sweep ends no further session and a repeated save writes the same
text. The sweep touches only sessions and addresses and the save only reads the book, so
their order does not matter either.
-/

namespace Bourse

/-- The virtual clock and the next tick of each job. -/
structure Schedule where
  now : Nat
  sweepEvery : Nat
  writeEvery : Nat
  nextSweep : Nat
  nextWrite : Nat
  deriving DecidableEq, Repr

namespace Schedule

/-- The schedule at time 0, periods raised to at least 1. -/
def start (sweepEvery writeEvery : Nat) : Schedule :=
  let sweepEvery := max sweepEvery 1
  let writeEvery := max writeEvery 1
  { now := 0, sweepEvery, writeEvery, nextSweep := 0, nextWrite := writeEvery }

/-- The first tick after `t` of a job with a period, when its next tick is due by `t`. -/
def following (next every t : Nat) : Nat := if next ≤ t then (t / every + 1) * every else next

/-- Moves the clock on; tells whether a sweep and a save fell due. -/
def advance (s : Schedule) (ms : Nat) : Schedule × Bool × Bool :=
  let t := s.now + ms
  ({ s with now := t, nextSweep := following s.nextSweep s.sweepEvery t,
            nextWrite := following s.nextWrite s.writeEvery t },
   decide (s.nextSweep ≤ t), decide (s.nextWrite ≤ t))

end Schedule

/-- The service with its periodic jobs. -/
structure Tasks where
  service : Http.Service
  schedule : Schedule

namespace Tasks

/-- Sleeps: runs the jobs that fall due. -/
def sleep (t : Tasks) (ms : Nat) : Tasks :=
  let (schedule, sweepDue, writeDue) := t.schedule.advance ms
  let svc := if sweepDue then t.service.sweep.1 else t.service
  let svc := if writeDue then
      match svc.exchange.persist with
      | .ok e => svc.withExchange e
      | .error _ => svc
    else svc
  { service := svc, schedule }

end Tasks

end Bourse
