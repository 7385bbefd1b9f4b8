import Sightline.Geometry.Vector

/-!
# Rotations and placements

A rotation is a quaternion `w + x i + y j + z k`. It is used as given: when it is not a unit
quaternion, applying it and applying its conjugate are not inverse to each other.

A placement puts a shape of unit size into the world: it is scaled, rotated and moved. Points,
directions and surface normals each map by a rule of their own.
-/

namespace Sightline

/-- A quaternion that turns vectors. -/
@[ext] structure Rotation (α : Type) where
  axis : Vec3 α
  w : α
deriving DecidableEq, Repr

namespace Rotation

variable {α : Type} [Scalar α]

def identity : Rotation α := ⟨Vec3.zero, 1⟩

def conjugate (q : Rotation α) : Rotation α := ⟨-q.axis, q.w⟩

def apply (q : Rotation α) (v : Vec3 α) : Vec3 α :=
  let t := q.axis.cross v * (2 : α)
  t * q.w + q.axis.cross t + v

/-- Turn a vector back, which inverts `apply` for a unit quaternion. -/
def unapply (q : Rotation α) (v : Vec3 α) : Vec3 α := q.conjugate.apply v

def isFinite (q : Rotation α) : Bool := q.axis.isFinite && Scalar.isFinite q.w

end Rotation

/-- Where a shape of unit size stands in the world. -/
@[ext] structure Placement (α : Type) where
  position : Vec3 α
  rotation : Rotation α
  scale : Vec3 α
deriving DecidableEq, Repr

namespace Placement

variable {α : Type} [Scalar α]

def identity : Placement α := ⟨Vec3.zero, Rotation.identity, Vec3.diagonal 1⟩

def toLocal (p : Placement α) (point : Vec3 α) : Vec3 α :=
  (p.rotation.unapply (point - p.position)).div p.scale

def toLocalVector (p : Placement α) (vector : Vec3 α) : Vec3 α :=
  (p.rotation.unapply vector).div p.scale

def toWorld (p : Placement α) (point : Vec3 α) : Vec3 α :=
  p.position + p.rotation.apply (point.mul p.scale)

/-- A surface normal of the unit shape as a unit normal in the world. A normal is divided by the
scale, so that it stays orthogonal to the stretched surface. -/
def toWorldNormal (p : Placement α) (normal : Vec3 α) : Vec3 α :=
  let world := p.rotation.apply (normal.div p.scale)
  let length := world.norm
  if (0 : α) < length then world / length else world

/-- Every component is finite and no axis is squashed to nothing. -/
def isInvertible (p : Placement α) : Bool :=
  p.position.isFinite
    && p.scale.all (fun s => Scalar.isFinite s && !(s == 0))
    && p.rotation.isFinite

end Placement

end Sightline
