import Sightline.Geometry.Bounds
import Sightline.Geometry.OrientedBox
import Sightline.Shape.Family

/-!
# Parts, groups and avatars

A part is a shape put somewhere. A group is a set of parts that move as one object; its bounds, in
its own frame, take in the corners of every part. An avatar is a box around a person.
-/

namespace Sightline

structure Part (α : Type) where
  id : EntityId
  /-- Place in the link set: zero for a part on its own, one for the root of several. -/
  link : Int32
  /-- Where the part stands; its scale is the full size. -/
  placement : Placement α
  shape : Shape

/-- Parts that move as one object. -/
structure Group (α : Type) where
  id : EntityId
  placement : Placement α
  /-- The extent of all parts in the frame of the group. -/
  bounds : Bounds α
  parts : List (Part α)
  physical : Bool := false
  phantom : Bool := false
  attachment : Bool := false

structure Avatar (α : Type) where
  id : EntityId
  /-- The middle of the box around the body. -/
  position : Vec3 α
  rotation : Rotation α
  size : Vec3 α

variable {α : Type} [Scalar α]

def Part.corners (p : Part α) : List (Vec3 α) := unitCorners.map p.placement.toWorld

def Part.box (p : Part α) : OrientedBox α :=
  OrientedBox.make p.placement.position p.placement.rotation
    (p.placement.scale * (Scalar.half : α))

namespace Group

/-- A group without special properties, its bounds taken from its parts. -/
def ofParts (id : EntityId) (position : Vec3 α) (rotation : Rotation α) (parts : List (Part α)) :
    Group α :=
  let placement : Placement α := ⟨position, rotation, Vec3.diagonal 1⟩
  let corners := (parts.flatMap Part.corners).map placement.toLocal
  { id := id
    placement := placement
    bounds := (Bounds.ofPoints? corners).getD ⟨Vec3.zero, Vec3.zero⟩
    parts := parts }

def single (id : EntityId) (placement : Placement α) (shape : Shape) : Group α :=
  ofParts id placement.position placement.rotation [⟨id, 0, placement, shape⟩]

def box (g : Group α) : OrientedBox α :=
  OrientedBox.make (g.placement.toWorld g.bounds.center) g.placement.rotation
    (g.bounds.halfExtents.mul g.placement.scale)

end Group

def Avatar.box (a : Avatar α) : OrientedBox α :=
  OrientedBox.make a.position a.rotation (a.size * (Scalar.half : α))

/-- Where the stand-in shape of an avatar is put. -/
def Avatar.placement (a : Avatar α) : Placement α := ⟨a.position, a.rotation, a.size⟩

end Sightline
