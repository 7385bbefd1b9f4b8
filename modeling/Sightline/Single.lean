import Sightline.Scalar

/-!
# Single precision

The scalar a query runs in. Rounding to whole numbers is built from the conversions to and from
64-bit words: below `2 ^ 23` the whole part of a single is exact there, and from `2 ^ 23` on a
single has no fraction left.
-/

namespace Sightline

namespace Single

/-- From this magnitude on every single is a whole number. -/
def wholeFrom : Float32 := 8388608

/-- The single nearest to a natural number below `2 ^ 64`. -/
def ofNat (n : Nat) : Float32 := (UInt64.ofNat n).toFloat32

/-- Whole part; what is negative or undefined goes to zero, what is too large to `2 ^ 64 - 1`. -/
def toNat (x : Float32) : Nat := x.toUInt64.toNat

/-- `x` with the sign of its magnitude `m` flipped where `x` is negative. -/
def withSignOf (x m : Float32) : Float32 := if x < 0 then -m else m

/-- The magnitude of `x` without its fraction, for `|x| < 2 ^ 23`. -/
def wholePart (x : Float32) : Float32 := x.abs.toUInt64.toFloat32

/-- Largest whole number not above `x`. Where there is no fraction to drop, `x` itself. -/
def floor (x : Float32) : Float32 :=
  if x.abs < wholeFrom then
    let whole := wholePart x
    if x < 0 then
      if whole == x.abs then -whole else -(whole + 1)
    else whole
  else x

def ceil (x : Float32) : Float32 := -floor (-x)

/-- Nearest whole number, a half going away from zero. -/
def round (x : Float32) : Float32 :=
  if x.abs < wholeFrom then
    let whole := wholePart x
    withSignOf x (if (0.5 : Float32) ≤ x.abs - whole then whole + 1 else whole)
  else x

/-- The whole number `x` stands for after its fraction is dropped; an undefined `x` gives zero. -/
def toInt (x : Float32) : Int := if x < 0 then -(toNat (-x) : Int) else toNat x

def infinity : Float32 := Float32.ofBits 0x7f800000

end Single

instance : Scalar Float32 where
  decLt := inferInstance
  decLe := inferInstance
  ofNat := Single.ofNat
  abs := Float32.abs
  sqrt := Float32.sqrt
  floor := Single.floor
  ceil := Single.ceil
  toNat := Single.toNat
  isFinite := Float32.isFinite

end Sightline
