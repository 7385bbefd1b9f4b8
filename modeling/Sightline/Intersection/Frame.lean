import Sightline.Geometry.Placement
import Sightline.Geometry.Segment
import Sightline.Shape.Family

/-!
# Ray frames

All placements of a shape share one mesh in a frame of unit size. Rather than moving the mesh into
the world, the ray is taken into the frame of the shape, once per candidate, and only what is hit is
mapped back.
-/

namespace Sightline

/-- A ray in the frame of one candidate. -/
structure RayFrame (α : Type) where
  placement : Placement α
  traits : Traits
  worldStart : Vec3 α
  start : Vec3 α
  /-- From start to stop in the frame. -/
  delta : Vec3 α

namespace RayFrame

variable {α : Type} [Scalar α]

def make (segment : Segment α) (placement : Placement α) (traits : Traits) : RayFrame α where
  placement := placement
  traits := traits
  worldStart := segment.start
  start := placement.toLocal segment.start
  delta := placement.toLocalVector segment.delta

/-- The frame of what is given in world coordinates. -/
def world (segment : Segment α) (traits : Traits) : RayFrame α :=
  make segment Placement.identity traits

def stop (f : RayFrame α) : Vec3 α := f.start + f.delta

def pointAt (f : RayFrame α) (t : α) : Vec3 α := f.start + f.delta * t

def toWorld (f : RayFrame α) (point : Vec3 α) : Vec3 α := f.placement.toWorld point

def toWorldNormal (f : RayFrame α) (normal : Vec3 α) : Vec3 α := f.placement.toWorldNormal normal

/-- Distance in the world from the start of the ray to a world point. -/
def distanceTo (f : RayFrame α) (point : Vec3 α) : α := (point - f.worldStart).norm

end RayFrame

end Sightline
