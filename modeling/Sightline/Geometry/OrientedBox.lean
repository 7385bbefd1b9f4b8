import Sightline.Geometry.Placement

/-!
# Oriented boxes

A box with axes of its own. Its half extents are not negative when it is built by `make`.
-/

namespace Sightline

@[ext] structure OrientedBox (α : Type) where
  center : Vec3 α
  /-- Turns the box axes into the world. -/
  rotation : Rotation α
  halfExtents : Vec3 α
deriving DecidableEq, Repr

namespace OrientedBox

variable {α : Type} [Scalar α]

/-- A box; the signs of the half extents do not matter. -/
def make (center : Vec3 α) (rotation : Rotation α) (halfExtents : Vec3 α) : OrientedBox α :=
  ⟨center, rotation, halfExtents.abs⟩

/-- The same box with every half extent multiplied by its coefficient. -/
def expanded (b : OrientedBox α) (coefficient : Vec3 α) : OrientedBox α :=
  { b with halfExtents := b.halfExtents.mul coefficient }

def toLocal (b : OrientedBox α) (point : Vec3 α) : Vec3 α := b.rotation.unapply (point - b.center)

/-- A point in the frame of the box lies in it or on its surface. -/
def containsLocal (b : OrientedBox α) (p : Vec3 α) : Bool :=
  Axis.all.all fun axis => decide (Scalar.abs (p.coord axis) ≤ b.halfExtents.coord axis)

def contains (b : OrientedBox α) (point : Vec3 α) : Bool := b.containsLocal (b.toLocal point)

/-- Radius of the sphere through the corners. -/
def radius (b : OrientedBox α) : α := b.halfExtents.norm

end OrientedBox

end Sightline
