/-!
# Watchdogs

A watchdog is armed when a shutdown begins. Unless it is disarmed before its grace period is over, its action runs.

* `fired_elapse_iff`: the action has run exactly if the grace period is over.
-/

namespace MediaChannels

/-- An armed watchdog: milliseconds of grace that are left, and whether its action has run. -/
structure Watchdog where
  remaining : Nat
  fired : Bool := false
  deriving DecidableEq, Repr

namespace Watchdog

/-- A watchdog that was just armed. -/
def arm (grace : Nat) : Watchdog := { remaining := grace }

/-- The watchdog some milliseconds later. -/
def elapse (w : Watchdog) (ms : Nat) : Watchdog :=
  if w.remaining ≤ ms then { remaining := 0, fired := true } else { w with remaining := w.remaining - ms }

/-- Stops the watchdog and tells whether its action had run already. -/
def disarm (w : Watchdog) : Bool := w.fired

theorem fired_elapse_iff (grace ms : Nat) : ((arm grace).elapse ms).fired = true ↔ grace ≤ ms := by
  unfold elapse arm
  split <;> simp_all

end Watchdog

end MediaChannels
