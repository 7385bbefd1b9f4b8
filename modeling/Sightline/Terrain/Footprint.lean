import Sightline.Geometry.Segment
import Sightline.Scene.Heightmap

/-!
# Footprints

The footprint of a segment is its shadow on the ground plane. It is walked along the axis it covers
more of, the major axis, from its lower to its higher end; in every column of cells on the way, the
cells it covers along the other axis are taken in the direction of the ray.

Holding a value between bounds is a partial operation, as the bounds have to be in order. The walk
takes it as a parameter that answers in a monad; such definitions end in `M`. What runs is the walk
with `Scalar.clamp`, which always answers.
-/

namespace Sightline

/-- A cell of a grid, by the coordinates of its lowest corner. -/
abbrev Cell := Nat × Nat

/-- A run of consecutive indices, both ends included. -/
structure Span where
  first : Nat
  last : Nat
deriving DecidableEq, Repr

namespace Span

def indices (s : Span) : List Nat := (List.range (s.last + 1 - s.first)).map (s.first + ·)

end Span

namespace Footprint

variable {α : Type} [Scalar α] {m : Type → Type} [Monad m]

/-- The lowest index a coordinate reaches down to, on an axis with `cells` cells. -/
def lowestCell (lo cells : α) : α := Scalar.min (Scalar.floor (Scalar.max lo 0)) (cells - 1)

/-- The highest index `[lo, hi]` reaches up to, before it is held against the axis. An interval
that ends on the border of two cells does not reach into the second one; an interval of length zero
belongs to the cell it starts in. -/
def reach (lo hi : α) : α :=
  if lo < hi then Scalar.ceil hi - 1 else Scalar.floor (Scalar.max lo 0)

/-- The cells that the interval `[lo, hi]` covers on an axis with `cells` cells. A coordinate on
the far border belongs to the last cell. -/
def spanM (clamp : α → α → α → m α) (lo hi : α) (cells : Nat) : m (Option Span) :=
  let n : α := Scalar.ofNat cells
  if cells = 0 ∨ hi < 0 ∨ n < lo then return none
  else do
    let first := lowestCell lo n
    let last ← clamp (reach lo hi) first (n - 1)
    return some ⟨Scalar.toNat first, Scalar.toNat last⟩

def span? (lo hi : α) (cells : Nat) : Option Span :=
  (spanM (m := Id) Scalar.clamp lo hi cells).run

/-- A line in the ground plane, by its major and minor coordinate, its lower major end first. -/
structure Line (α : Type) where
  low : α × α
  high : α × α

namespace Line

def minorAt (l : Line α) (a : α) : α :=
  if l.low.1 < l.high.1 then
    l.low.2 + (l.high.2 - l.low.2) * (a - l.low.1) / (l.high.1 - l.low.1)
  else l.low.2

/-- The line does not fall towards its higher end. -/
def ascends (l : Line α) : Bool := decide (l.low.2 ≤ l.high.2)

/-- The coordinates between which a line crosses a column. -/
def crossing (l : Line α) (column : Nat) : α × α :=
  let lo := Scalar.max l.low.1 (Scalar.ofNat column)
  (lo, Scalar.max (Scalar.min l.high.1 (Scalar.ofNat (column + 1))) lo)

/-- The minor indices covered within one column of cells, in walking order. -/
def minorsM (clamp : α → α → α → m α) (l : Line α) (cells column : Nat) : m (List Nat) := do
  let m0 := l.minorAt (l.crossing column).1
  let m1 := l.minorAt (l.crossing column).2
  match ← spanM clamp (Scalar.min m0 m1) (Scalar.max m0 m1) cells with
  | none => return []
  | some span => return if l.ascends then span.indices else span.indices.reverse

def minors (l : Line α) (cells column : Nat) : List Nat :=
  (l.minorsM (m := Id) Scalar.clamp cells column).run

/-- Major and minor indices of the cells covered, in walking order. -/
def walkM (clamp : α → α → α → m α) (l : Line α) (majorCells minorCells : Nat) :
    m (List (Nat × Nat)) := do
  match ← spanM clamp l.low.1 l.high.1 majorCells with
  | none => return []
  | some span =>
    let columns ← span.indices.mapM fun column => do
      let minors ← l.minorsM clamp minorCells column
      return minors.map fun minor => (column, minor)
    return columns.flatten

def walk (l : Line α) (majorCells minorCells : Nat) : List (Nat × Nat) :=
  (l.walkM (m := Id) Scalar.clamp majorCells minorCells).run

end Line

def isXMajor (segment : Segment α) : Bool :=
  let delta := segment.delta
  decide (Scalar.abs delta.y ≤ Scalar.abs delta.x)

def lineBetween (p q : α × α) : Line α := if p.1 ≤ q.1 then ⟨p, q⟩ else ⟨q, p⟩

def line (segment : Segment α) : Line α :=
  let p := segment.start
  let q := segment.stop
  if isXMajor segment then lineBetween (p.x, p.y) (q.x, q.y) else lineBetween (p.y, p.x) (q.y, q.x)

/-- The cells under a segment on a grid with `cellsX × cellsY` cells, in walking order. -/
def cellsM (clamp : α → α → α → m α) (cellsX cellsY : Nat) (segment : Segment α) :
    m (List Cell) := do
  if isXMajor segment then (line segment).walkM clamp cellsX cellsY
  else
    let places ← (line segment).walkM clamp cellsY cellsX
    return places.map fun (major, minor) => (minor, major)

def cells (cellsX cellsY : Nat) (segment : Segment α) : List Cell :=
  (cellsM (m := Id) Scalar.clamp cellsX cellsY segment).run

end Footprint

end Sightline
