import Sightline.Decimal.Scientific

/-!
# Shortest decimals

The shortest decimal that reads back as a given binary number. All decimals that read back lie in an
interval around the number, whose ends are half way to its neighbours and belong to it when the
mantissa is even. Decimal grids are tried from coarse to fine: the first one with a point in the
interval has the fewest digits. Of two such points the nearer one is taken, and the larger one if
both are equally near.
-/

namespace Sightline

namespace Shortest

/-- The numbers that round to `m * 2 ^ q`, in units of `2 ^ (q - 2)`. -/
structure Interval where
  lower : Nat
  value : Nat
  upper : Nat
  closed : Bool

/-- The interval around `m * 2 ^ q`. Below a power of two the neighbour is only half as far, except
at the finest exponent. -/
def interval (f : BinaryFormat) (m : Nat) (q : Int) : Interval where
  lower := if m = Nat.pow 2 f.fractionBits ∧ f.leastExponent < q then 4 * m - 1 else 4 * m - 2
  value := 4 * m
  upper := 4 * m + 2
  closed := m % 2 = 0

/-- The measure of an interval in a scale that it shares with the grid of `10 ^ k`: a number `n` of
the interval and a grid point `d` compare as `n * unit` and `d * step`. -/
def unit (q k : Int) : Nat := powerUp 2 (q - 2) * powerDown 10 k

/-- The measure of the grid of `10 ^ k` in the scale it shares with an interval. -/
def step (q k : Int) : Nat := powerUp 10 k * powerDown 2 (q - 2)

/-- The grid point of `10 ^ k` in the interval that is nearest to the number, as a multiple of
`10 ^ k`. -/
def onGrid? (i : Interval) (q k : Int) : Option Nat :=
  let unit := unit q k
  let step := step q k
  let inside (d : Nat) : Bool :=
    if i.closed then i.lower * unit ≤ d * step && d * step ≤ i.upper * unit
    else i.lower * unit < d * step && d * step < i.upper * unit
  let below := i.value * unit / step
  let rest := i.value * unit % step
  match inside below, inside (below + 1) with
  | true, true => some (if 2 * rest < step then below else below + 1)
  | true, false => some below
  | false, true => some (below + 1)
  | false, false => none

/-- Try the grids from `10 ^ k` on downwards. -/
def search (i : Interval) (q : Int) : (grids : Nat) → (k : Int) → Nat × Int
  | 0, k => (i.value * unit q k / step q k, k)
  | grids + 1, k =>
    match onGrid? i q k with
    | some d => (d, k)
    | none => search i q grids (k - 1)

/-- The shortest decimal for `m * 2 ^ q`, as digits and a power of ten. The first grid is coarser
than the number: `log10 2` is a little less than `0.30103`. -/
def decimal (f : BinaryFormat) (m : Nat) (q : Int) : Nat × Int :=
  if m = 0 then (0, 0)
  else search (interval f m q) q f.precision (((m.log2 : Int) + q + 1) * 30103 / 100000 + 1)

end Shortest

end Sightline
