import Sightline.Single

/-!
# Time

Readings and spans of time are natural numbers of nanoseconds. The clock of a service counts them in
a 64-bit word: a span that does not fit moves it by the largest word, and the count wraps around.
-/

namespace Sightline

/-- A span of time, or a reading of a clock since its origin. -/
abbrev Nanoseconds := Nat

namespace Nanoseconds

def perSecond : Nat := 1000000000

def perMillisecond : Nat := 1000000

def ofMillis (n : Nat) : Nanoseconds := n * perMillisecond

def ofSeconds (n : Nat) : Nanoseconds := n * perSecond

/-- The span in milliseconds. Whole seconds and the rest of a second are rounded each on its own
before they are added. -/
def toMillis (d : Nanoseconds) : Float32 :=
  (Single.ofNat (d / perSecond) + Single.ofNat (d % perSecond) / Single.ofNat perSecond) * 1000

/-- The span as a 64-bit word, the largest word standing for all that do not fit. -/
def toWord (d : Nanoseconds) : UInt64 := UInt64.ofNat (min d (UInt64.size - 1))

end Nanoseconds

/-- A clock that moves when it is told to. -/
structure Clock where
  nanos : UInt64
deriving DecidableEq, Repr

namespace Clock

def zero : Clock := ⟨0⟩

def now (c : Clock) : Nanoseconds := c.nanos.toNat

def advance (c : Clock) (d : Nanoseconds) : Clock := ⟨c.nanos + d.toWord⟩

def set (_ : Clock) (d : Nanoseconds) : Clock := ⟨d.toWord⟩

end Clock

end Sightline
