import BlobVault.Number.Duration

/-!
# Time

Points in time are nanoseconds since some start.  Timers go off at whole milliseconds, the first
one that is not before their time.
-/

namespace BlobVault.Clock

/-- The nanoseconds of a millisecond. -/
def perMilli : Nat := 1000000

/-- When a timer for this time goes off. -/
def alarm (wake : Nat) : Nat := (wake + (perMilli - 1)) / perMilli * perMilli

/-- A timer for this time has gone off. -/
def isDue (wake now : Nat) : Bool := alarm wake ≤ now

/-- The time after some delay. -/
def after (now : Nat) (d : Duration) : Nat := now + d.nanos

end BlobVault.Clock
