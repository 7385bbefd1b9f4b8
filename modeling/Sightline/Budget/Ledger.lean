import Sightline.Clock
import Sightline.Decimal.Text
import Sightline.Identity

/-!
# The budget of a region and of a user

Every call is charged what it cost to the region it ran in and to the user it was made for. Only
charges of a rolling window count. A call may start while both budgets have enough left; once it
started it runs to its end, so a budget can be overdrawn.
-/

namespace Sightline

structure BudgetSettings where
  windowMs : UInt64 := 1000
  /-- What all calls of a region may spend within the window, in milliseconds. -/
  regionMs : Float32 := 40
  /-- What all calls of a user may spend within the window, in milliseconds. -/
  userMs : Float32 := 10
  /-- A call is refused when less than this is left, in milliseconds. -/
  minimumMs : Float32 := 2
deriving BEq, Repr

def BudgetSettings.window (s : BudgetSettings) : Nanoseconds :=
  Nanoseconds.ofMillis s.windowMs.toNat

structure Charge where
  region : RegionId
  user : UserId
  stamp : Nanoseconds
  costMs : Float32
deriving Repr

/-- Leave to run a call. -/
structure Grant where
  region : RegionId
  user : UserId
  started : Nanoseconds
  availableMs : Float32
deriving Repr

structure Denial where
  availableMs : Float32
deriving Repr

def Denial.message (d : Denial) : String :=
  s!"insufficient ray-cast time: {millisText d.availableMs} ms available"

/-- The charges that may still count, the oldest first. -/
structure Ledger where
  charges : List Charge
deriving Repr

namespace Ledger

def empty : Ledger := ⟨[]⟩

def size (l : Ledger) : Nat := l.charges.length

def expired (window now : Nanoseconds) (c : Charge) : Bool := decide (window < now - c.stamp)

/-- Drop the charges at the front that are too old to count. As charges are made in order of time,
no such charge comes after one that counts. -/
def prune (l : Ledger) (window now : Nanoseconds) : Ledger :=
  ⟨l.charges.dropWhile (expired window now)⟩

/-- The sum of the costs of some charges, in milliseconds, added up in the order they were made. -/
def spent (charges : List Charge) (counts : Charge → Bool) : Float32 :=
  (charges.filter counts).foldl (fun sum c => sum + c.costMs) 0

/-- What a user may still spend in a region, in milliseconds: what is left to the region, whoever
spent the rest, or what is left to the user, wherever the rest was spent. -/
def available (l : Ledger) (s : BudgetSettings) (region : RegionId) (user : UserId) : Float32 :=
  Scalar.min (s.regionMs - spent l.charges (·.region == region))
    (s.userMs - spent l.charges (·.user == user))

def availableAt (l : Ledger) (s : BudgetSettings) (now : Nanoseconds) (region : RegionId)
    (user : UserId) : Float32 × Ledger :=
  let l := l.prune s.window now
  (l.available s region user, l)

def sizeAt (l : Ledger) (s : BudgetSettings) (now : Nanoseconds) : Nat × Ledger :=
  let l := l.prune s.window now
  (l.size, l)

def request (l : Ledger) (s : BudgetSettings) (now : Nanoseconds) (region : RegionId)
    (user : UserId) : Except Denial Grant × Ledger :=
  let (availableMs, l) := l.availableAt s now region user
  if availableMs < s.minimumMs then (.error ⟨availableMs⟩, l)
  else (.ok ⟨region, user, now, availableMs⟩, l)

def charge (l : Ledger) (s : BudgetSettings) (now : Nanoseconds) (grant : Grant)
    (cost : Nanoseconds) : Ledger :=
  let l := l.prune s.window now
  ⟨l.charges ++ [⟨grant.region, grant.user, now, cost.toMillis⟩]⟩

end Ledger

end Sightline
