import Sightline.Geometry.Vector

/-!
# Segments

The finite ray a query asks about.
-/

namespace Sightline

@[ext] structure Segment (α : Type) where
  start : Vec3 α
  stop : Vec3 α
deriving DecidableEq, Repr

namespace Segment

variable {α : Type} [Scalar α]

/-- From the start to the stop, not normalised. -/
def delta (s : Segment α) : Vec3 α := s.stop - s.start

def length (s : Segment α) : α := s.delta.norm

/-- Unit direction, or zero when the endpoints coincide. -/
def direction (s : Segment α) : Vec3 α :=
  let length := s.length
  if (0 : α) < length then s.delta / length else Vec3.zero

/-- The point at parameter `t`, from the start at `0` to the stop at `1`. -/
def pointAt (s : Segment α) (t : α) : Vec3 α := s.start + s.delta * t

/-- Too short to have a direction. -/
def isDegenerate (s : Segment α) (tolerance : α) : Bool := decide (s.length < tolerance)

def isFinite (s : Segment α) : Bool := s.start.isFinite && s.stop.isFinite

end Segment

end Sightline
