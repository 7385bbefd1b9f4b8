import Sightline.Geometry.Vector

/-!
# Axis-aligned bounds
-/

namespace Sightline

/-- The extent of something along each axis of its frame. -/
@[ext] structure Bounds (α : Type) where
  lower : Vec3 α
  upper : Vec3 α
deriving DecidableEq, Repr

namespace Bounds

variable {α : Type} [Scalar α]

def including (b : Bounds α) (p : Vec3 α) : Bounds α := ⟨b.lower.min p, b.upper.max p⟩

/-- The smallest bounds that take in every point, if there is one. -/
def ofPoints? : List (Vec3 α) → Option (Bounds α)
  | [] => none
  | p :: ps => some (ps.foldl including ⟨p, p⟩)

def center (b : Bounds α) : Vec3 α := (b.lower + b.upper) * (Scalar.half : α)

def halfExtents (b : Bounds α) : Vec3 α := (b.upper - b.lower) * (Scalar.half : α)

end Bounds

/-- A corner of the box of size one around the origin. Bit `k` of its number says on which side it
lies along axis `k`. -/
def unitCorner {α : Type} [Scalar α] (n : Nat) : Vec3 α :=
  let side (bit : Nat) : α := if n.testBit bit then Scalar.half else -Scalar.half
  ⟨side 0, side 1, side 2⟩

def unitCorners {α : Type} [Scalar α] : List (Vec3 α) := (List.range 8).map unitCorner

end Sightline
