import Sightline.Decimal.Shortest

/-!
# Numbers as text

A number is written without an exponent, either with the fewest digits that read back or with a
fixed number of places. What else differs between the places numbers are written in is one record.
-/

namespace Sightline

/-- How a place of output spells numbers. -/
structure NumberStyle where
  nan : String
  /-- What follows a whole number. -/
  wholeSuffix : String

namespace NumberStyle

/-- In messages a whole number has no fraction. -/
def plain : NumberStyle := ⟨"NaN", ""⟩

end NumberStyle

def signText (negative : Bool) : String := if negative then "-" else ""

/-- The digits of `n / 10 ^ places` with a point before the last `places` of them. -/
def pointed (n places : Nat) : String :=
  let digits := digitsOf n
  let padded := List.replicate (places + 1 - digits.length) '0' ++ digits
  let whole := padded.take (padded.length - places)
  let fraction := padded.drop (padded.length - places)
  String.ofList whole ++ "." ++ String.ofList fraction

/-- The number `digits * 10 ^ k` without an exponent. -/
def positional (style : NumberStyle) (digits : Nat) (k : Int) : String :=
  if 0 ≤ k then
    String.ofList (digitsOf digits ++ List.replicate k.toNat '0') ++ style.wholeSuffix
  else pointed digits (-k).toNat

/-- A number with the fewest digits that read back in the format. -/
def shortestText (style : NumberStyle) (f : BinaryFormat) : BinaryNumber → String
  | .nan => style.nan
  | .infinity negative => signText negative ++ "inf"
  | .finite negative m q =>
    let (digits, k) := Shortest.decimal f m q
    let k := if digits = 0 then 0 else k
    signText negative ++ positional style digits k

/-- A number rounded to a fixed number of places, at least one; a tie goes to the even last digit,
and the sign stays even where nothing else is left. -/
def fixedText (places : Nat) : BinaryNumber → String
  | .nan => NumberStyle.plain.nan
  | .infinity negative => signText negative ++ "inf"
  | .finite negative m q =>
    let n := roundDiv (m * powerUp 2 q * Nat.pow 10 places) (powerDown 2 q)
    signText negative ++ pointed n places

def millisText (ms : Float32) : String := fixedText 3 (BinaryNumber.ofSingle ms)

end Sightline
