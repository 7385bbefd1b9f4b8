import Sightline.Geometry.Vector

/-!
# Triangles

Three points in order. Seen from the side its normal points to, they run counter-clockwise.
-/

namespace Sightline

@[ext] structure Triangle (α : Type) where
  a : Vec3 α
  b : Vec3 α
  c : Vec3 α
deriving DecidableEq, Repr

namespace Triangle

variable {α : Type} [Scalar α]

/-- A normal whose length is twice the area. -/
def scaledNormal (t : Triangle α) : Vec3 α := (t.b - t.a).cross (t.c - t.a)

/-- The unit normal, unless twice the area is below the tolerance. -/
def normal? (t : Triangle α) (tolerance : α) : Option (Vec3 α) :=
  let n := t.scaledNormal
  let length := n.norm
  if tolerance ≤ length then some (n / length) else none

def lower (t : Triangle α) : Vec3 α := (t.a.min t.b).min t.c

def upper (t : Triangle α) : Vec3 α := (t.a.max t.b).max t.c

def centroid (t : Triangle α) : Vec3 α := (t.a + t.b + t.c) / (3 : α)

/-- The sides, each from a corner to the next one. -/
def edges (t : Triangle α) : List (Vec3 α × Vec3 α) := [(t.a, t.b), (t.b, t.c), (t.c, t.a)]

end Triangle

end Sightline
