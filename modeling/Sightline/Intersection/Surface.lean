import Sightline.Geometry.Triangle
import Sightline.Intersection.Frame

/-!
# Where a ray meets a triangle

The plane of the triangle is met first, in the frame of the candidate; the point there is then held
against the bounds and the sides of the triangle, with some slack. What is reported is in world
coordinates.
-/

namespace Sightline

structure SurfaceHit (α : Type) where
  t : α
  position : Vec3 α
  /-- Unit normal of the surface on the side the ray comes from, in the world. -/
  normal : Vec3 α
  distance : α
  /-- The ray goes into the surface rather than out of it. -/
  entering : Bool

structure SurfaceTest (α : Type) where
  /-- Slack at the sides of a triangle; what is smaller counts as degenerate or parallel. -/
  tolerance : α
  /-- A plane nearer to the local origin than this counts as passing through it. -/
  planeTolerance : α
  /-- Report where a ray leaves a volume. -/
  detectExits : Bool

namespace SurfaceTest

variable {α : Type} [Scalar α]

/-- A point in the plane of a triangle lies on it, give or take the tolerance: within its bounds,
and not outside any of its sides. -/
def covers (tolerance : α) (tri : Triangle α) (normal point : Vec3 α) : Bool :=
  let lower := tri.lower
  let upper := tri.upper
  let outside (axis : Axis) : Bool :=
    decide (point.coord axis < lower.coord axis - tolerance)
      || decide (upper.coord axis + tolerance < point.coord axis)
  let inside : Vec3 α × Vec3 α → Bool := fun (a, b) =>
    let edge := b - a
    decide (-tolerance * edge.norm ≤ normal.dot (edge.cross (point - a)))
  Axis.all.all (fun axis => !outside axis) && tri.edges.all inside

/-- Where the ray of a frame meets a triangle given in that frame. -/
def intersect? (test : SurfaceTest α) (frame : RayFrame α) (tri : Triangle α) :
    Option (SurfaceHit α) := do
  let normal ← tri.normal? test.tolerance
  let length := frame.delta.norm
  -- a ray or a plane that has no direction to speak of is not met
  guard !(decide (length < test.tolerance))
  let slope := normal.dot frame.delta
  guard !(decide (Scalar.abs slope < test.tolerance * length))
  -- going along the outward normal is leaving the surface
  let entering := decide (slope < 0)
  guard (entering || (test.detectExits && frame.traits.exitHits))
  let offset := normal.dot tri.a
  guard !(!frame.traits.endCaps && decide (Scalar.abs offset < test.planeTolerance))
  let t := (offset - normal.dot frame.start) / slope
  guard (Scalar.inUnit t)
  let point := frame.pointAt t
  guard (covers test.tolerance tri normal point)
  let position := frame.toWorld point
  let outward := frame.toWorldNormal normal
  return {
    t := t
    position := position
    normal := if entering then outward else -outward
    distance := frame.distanceTo position
    entering := entering }

end SurfaceTest

end Sightline
