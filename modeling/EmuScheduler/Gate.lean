/-!
# The gate

Where the scheduler sleeps while it has nothing to run. Checking the condition for going on and
falling asleep are one section, and a notification is another, so a change that is made before a
notification is either seen by the check or ends the sleep. There is no timeout.
-/

namespace EmuScheduler

/-- The gate and the one who may sleep on it. -/
structure Gate where
  /-- How often the gate was notified, modulo 2^64. -/
  notifications : UInt64 := 0
  asleep : Bool := false
  deriving DecidableEq, Repr, Inhabited

namespace Gate

/-- Counts a notification and wakes whoever sleeps. -/
def notify (g : Gate) : Gate :=
  { notifications := g.notifications + 1, asleep := false }

/-- Falls asleep unless there is reason to go on. -/
def sleepUnless (g : Gate) (ready : Bool) : Gate :=
  { g with asleep := !ready }

end Gate
end EmuScheduler
