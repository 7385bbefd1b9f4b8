/-!
# Scalars

The arithmetic that geometry is written over. A query runs in single precision, where every
operation rounds; the same formulas can be read over an exact number type, where none does. Both
readings use this one interface, so a definition of this library is a single text for both.

The comparisons are those of floating point: a value that is not a number is neither below, above
nor equal to anything, itself included. Over an exact type no such value exists.
-/

namespace Sightline

/-- A number type a query can be computed in. -/
class Scalar (α : Type) extends Add α, Sub α, Mul α, Div α, Neg α, LT α, LE α, BEq α where
  decLt : DecidableLT α
  decLe : DecidableLE α
  /-- The number nearest to a natural number. -/
  ofNat : Nat → α
  abs : α → α
  sqrt : α → α
  floor : α → α
  ceil : α → α
  /-- Whole part, with everything that is not positive sent to zero. -/
  toNat : α → Nat
  /-- Neither infinite nor undefined. -/
  isFinite : α → Bool

namespace Scalar

variable {α : Type} [Scalar α]

instance : DecidableLT α := Scalar.decLt

instance : DecidableLE α := Scalar.decLe

/-- Numerals of a scalar type; any numerals the type has of its own come first. -/
instance (priority := low) instOfNat (n : Nat) : OfNat α n := ⟨Scalar.ofNat n⟩

def half : α := 1 / 2

/-- The value equals itself, which only an undefined one does not. -/
def isDefined (a : α) : Bool := a == a

/-- The smaller operand; an undefined operand yields to the other one. -/
def min (a b : α) : α := if a ≤ b then a else if isDefined b then b else a

/-- The larger operand; an undefined operand yields to the other one. -/
def max (a b : α) : α := if b ≤ a then a else if isDefined b then b else a

/-- The nearest value of `[lo, hi]`; an undefined value stays as it is. -/
def clamp (a lo hi : α) : α := if a < lo then lo else if hi < a then hi else a

/-- The parameter lies on the segment it runs along: `0 ≤ t ≤ 1`. -/
def inUnit (t : α) : Bool := decide ((0 : α) ≤ t) && decide (t ≤ 1)

end Scalar

end Sightline
