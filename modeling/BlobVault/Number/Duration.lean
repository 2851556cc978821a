import BlobVault.Number.Shortest

/-!
# Durations

A duration is a whole number of nanoseconds.  It is read from a number of seconds, rounded to the
nearest nanosecond with ties to even; negative numbers and those of 2^64 seconds or more are
refused.
-/

namespace BlobVault

/-- A span of time. -/
structure Duration where
  nanos : Nat
  deriving DecidableEq, Repr, Inhabited

namespace Duration

/-- Nanoseconds in a second. -/
def perSecond : Nat := 1000000000

/-- A whole number of seconds. -/
def ofSeconds (n : Nat) : Duration := ⟨n * perSecond⟩

/-- A whole number of milliseconds. -/
def ofMillis (n : Nat) : Duration := ⟨n * 1000000⟩

/-- The whole seconds. -/
def seconds (d : Duration) : Nat := d.nanos / perSecond

/-- The nanoseconds after the last whole second. -/
def subNanos (d : Duration) : Nat := d.nanos % perSecond

/-- Why a number of seconds is no duration. -/
inductive Fault where
  | negative
  | outOfRange
  deriving DecidableEq, Repr

/-- The text of a fault. -/
def Fault.message : Fault → String
  | .negative => "cannot convert float seconds to Duration: value is negative"
  | .outOfRange => "cannot convert float seconds to Duration: value is either too big or NaN"

/-- The duration of a number of seconds. -/
def ofFloat : Binary64 → Except Fault Duration
  | .nan => .error .outOfRange
  | .infinite negative => .error (if negative then .negative else .outOfRange)
  | .finite negative m e =>
    if negative && m != 0 then .error .negative
    else
      let (num, den) := Binary64.fraction m e
      let nanos := Binary64.roundQuotient (num * perSecond) den
      if nanos < Nat.pow 2 64 * perSecond then .ok ⟨nanos⟩ else .error .outOfRange

/-- What is said of a number of seconds that is no duration. -/
def unreadable (x : Binary64) (fault : Fault) : String :=
  "invalid duration " ++ FloatStyle.positional.text x ++ ": " ++ fault.message

/-- The number of seconds, rounded twice: the fraction of a second, and the sum. -/
def toFloat (d : Duration) : Binary64 :=
  (Binary64.ofNat d.seconds).add (Binary64.ofRatio false d.subNanos perSecond)

end Duration

end BlobVault
