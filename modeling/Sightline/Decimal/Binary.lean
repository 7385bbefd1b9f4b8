/-!
# Binary floating-point formats

A bit pattern of a binary interchange format stands for a number `± m * 2 ^ q`, for an infinity, or
for no number. Here a pattern is read exactly, and an exact fraction is rounded to the nearest
number of a format, a tie going to the even mantissa.
-/

namespace Sightline

structure BinaryFormat where
  /-- Bits of the mantissa, the leading one included. -/
  precision : Nat
  exponentBits : Nat

inductive BinaryNumber where
  | nan
  | infinity (negative : Bool)
  /-- The number `± mantissa * 2 ^ exponent`. -/
  | finite (negative : Bool) (mantissa : Nat) (exponent : Int)
deriving DecidableEq, Repr

/-- The numerator of `b ^ e` as a fraction. -/
def powerUp (b : Nat) (e : Int) : Nat := Nat.pow b e.toNat

/-- The denominator of `b ^ e` as a fraction. -/
def powerDown (b : Nat) (e : Int) : Nat := Nat.pow b (-e).toNat

/-- The nearest whole number to `num / den`, a tie going to the even one. -/
def roundDiv (num den : Nat) : Nat :=
  let whole := num / den
  let rest := num % den
  if den < 2 * rest ∨ (2 * rest = den ∧ whole % 2 = 1) then whole + 1 else whole

namespace BinaryFormat

def single : BinaryFormat := ⟨24, 8⟩

def double : BinaryFormat := ⟨53, 11⟩

def fractionBits (f : BinaryFormat) : Nat := f.precision - 1

/-- The exponent `q` of the finest numbers of the format. -/
def leastExponent (f : BinaryFormat) : Int :=
  2 - Nat.pow 2 (f.exponentBits - 1) - f.fractionBits

/-- The exponent field of infinities and of what is no number. -/
def topField (f : BinaryFormat) : Nat := Nat.pow 2 f.exponentBits - 1

def infinityBits (f : BinaryFormat) : Nat := f.topField * Nat.pow 2 f.fractionBits

def signBit (f : BinaryFormat) : Nat := Nat.pow 2 (f.fractionBits + f.exponentBits)

def decode (f : BinaryFormat) (bits : Nat) : BinaryNumber :=
  let fraction := bits % Nat.pow 2 f.fractionBits
  let field := bits / Nat.pow 2 f.fractionBits % Nat.pow 2 f.exponentBits
  let negative := bits / f.signBit % 2 == 1
  if field = f.topField then
    if fraction = 0 then .infinity negative else .nan
  else if field = 0 then .finite negative fraction f.leastExponent
  else .finite negative (Nat.pow 2 f.fractionBits + fraction) (f.leastExponent + (field - 1 : Nat))

/-- The pattern of the number nearest to `num / den`, which is not negative. What is too large
becomes infinity. -/
def roundQuotient (f : BinaryFormat) (num den : Nat) : Nat :=
  if num = 0 ∨ den = 0 then 0
  else
    -- `2 ^ top` is the largest power of two not above the quotient
    let guess : Int := (num.log2 : Int) - den.log2
    let top := if den * powerUp 2 guess ≤ num * powerDown 2 guess then guess else guess - 1
    let q := max (top - f.fractionBits) f.leastExponent
    let mantissa := roundDiv (num * powerDown 2 q) (den * powerUp 2 q)
    -- a mantissa that was rounded up to a power of two carries into the exponent field
    min ((q - f.leastExponent).toNat * Nat.pow 2 f.fractionBits + mantissa) f.infinityBits

def withSign (f : BinaryFormat) (negative : Bool) (bits : Nat) : Nat :=
  if negative then f.signBit + bits else bits

def nanBits (f : BinaryFormat) : Nat := f.infinityBits + Nat.pow 2 (f.fractionBits - 1)

/-- The pattern of a number of another format, rounded to this one. -/
def convert (f : BinaryFormat) : BinaryNumber → Nat
  | .nan => f.nanBits
  | .infinity negative => f.withSign negative f.infinityBits
  | .finite negative m q =>
    f.withSign negative (f.roundQuotient (m * powerUp 2 q) (powerDown 2 q))

end BinaryFormat

def BinaryNumber.ofSingle (x : Float32) : BinaryNumber := BinaryFormat.single.decode x.toBits.toNat

def BinaryNumber.toSingle (n : BinaryNumber) : Float32 :=
  Float32.ofBits (UInt32.ofNat (BinaryFormat.single.convert n))

def BinaryNumber.roundTo (f : BinaryFormat) (n : BinaryNumber) : BinaryNumber :=
  f.decode (f.convert n)

end Sightline
