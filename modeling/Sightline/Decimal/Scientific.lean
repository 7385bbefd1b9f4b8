import Sightline.Decimal.Binary

/-!
# Decimal numbers

A decimal `± digits * 10 ^ exponent`, as it is written down. It is rounded to a binary format once,
from its exact value.
-/

namespace Sightline

structure Scientific where
  negative : Bool
  digits : Nat
  /-- The power of ten the digits are multiplied by. -/
  exponent : Int
deriving DecidableEq, Repr

/-- The value of decimal digits, most significant first. -/
def digitsValue (cs : List Char) : Nat := cs.foldl (fun n c => 10 * n + (c.toNat - 48)) 0

def digitsOf (n : Nat) : List Char := Nat.toDigits 10 n

namespace Scientific

/-- Beyond this power of ten a number is too large for every format in use, and below its inverse
too small. -/
def reach : Nat := 400

def toBits (f : BinaryFormat) (s : Scientific) : Nat :=
  let magnitude : Int := s.exponent + (digitsOf s.digits).length
  let bits :=
    if s.digits = 0 ∨ magnitude < -reach then 0
    else if (reach : Int) < magnitude then f.infinityBits
    else f.roundQuotient (s.digits * powerUp 10 s.exponent) (powerDown 10 s.exponent)
  f.withSign s.negative bits

def toBinary (f : BinaryFormat) (s : Scientific) : BinaryNumber := f.decode (s.toBits f)

/-- The nearest single, rounded once. -/
def toSingle (s : Scientific) : Float32 :=
  Float32.ofBits (UInt32.ofNat (s.toBits BinaryFormat.single))

end Scientific

/-- The notation of a decimal without its sign: digits, a fraction, and a power of ten. -/
structure DecimalParts where
  whole : List Char
  fraction : List Char := []
  negativePower : Bool := false
  power : List Char := []

/-- The parts of digits with an optional fraction and an optional power of ten. Digits may be missing
on one side of the point, but not on both; the power of ten needs digits. -/
def DecimalParts.ofChars? (cs : List Char) : Option DecimalParts :=
  let whole := cs.takeWhile Char.isDigit
  let (fraction, rest) := match cs.dropWhile Char.isDigit with
    | '.' :: rest => (rest.takeWhile Char.isDigit, rest.dropWhile Char.isDigit)
    | rest => ([], rest)
  if whole.isEmpty && fraction.isEmpty then none
  else
    let power (negative : Bool) (digits : List Char) : Option DecimalParts :=
      if digits.isEmpty || !digits.all Char.isDigit then none
      else some ⟨whole, fraction, negative, digits⟩
    match rest with
    | [] => some { whole := whole, fraction := fraction }
    | e :: rest =>
      if e != 'e' && e != 'E' then none
      else
        match rest with
        | '+' :: digits => power false digits
        | '-' :: digits => power true digits
        | digits => power false digits

def DecimalParts.toScientific (p : DecimalParts) (negative : Bool) : Scientific :=
  let power : Int := digitsValue p.power
  { negative := negative
    digits := digitsValue (p.whole ++ p.fraction)
    exponent := (if p.negativePower then -power else power) - p.fraction.length }

/-- The number written as an optional sign and digits, with an optional fraction and an optional
power of ten. -/
def Scientific.ofChars? (cs : List Char) : Option Scientific :=
  match cs with
  | '+' :: rest => (DecimalParts.ofChars? rest).map (·.toScientific false)
  | '-' :: rest => (DecimalParts.ofChars? rest).map (·.toScientific true)
  | rest => (DecimalParts.ofChars? rest).map (·.toScientific false)

end Sightline
