import Sightline.Geometry.OrientedBox
import Sightline.Geometry.Segment
import Sightline.Intersection.Contact

/-!
# Culling

Candidates are boxed, the boxes are widened by a safety margin, and only those that the segment may
touch are looked at more closely. The same boxes serve to find where a segment enters an avatar.
-/

namespace Sightline

structure Culler (α : Type) where
  /-- What moves less than this along an axis counts as parallel to its faces. -/
  tolerance : α
  /-- Factor by which half extents are widened. -/
  safety : Vec3 α

/-- A face of a box crossed on the way in. -/
structure Crossing (α : Type) where
  t : α
  axis : Axis
  /-- The side the face lies on, as the sign of its coordinate. -/
  side : α

/-- The part of a segment that is inside all slabs looked at so far. -/
structure Passage (α : Type) where
  /-- The face crossed last on the way in; none before any slab was crossed. -/
  entry : Option (Crossing α) := none
  /-- The parameter of the first way out; none as long as there is no bound. -/
  exit : Option α := none

namespace Culler

variable {α : Type} [Scalar α]

/-- The segment comes near the sphere around a box: neither the whole box lies off to the side of
the line, nor behind the start, nor past the stop. -/
def nearSphere (segment : Segment α) (box : OrientedBox α) : Bool :=
  let delta := segment.delta
  let length := delta.norm
  let direction := delta / length
  let toCenter := box.center - segment.start
  let along := toCenter.dot direction
  let radius := box.radius
  !(decide (radius < (toCenter - direction * along).norm)
    || decide (along < -radius)
    || decide (length + radius < along))

/-- The line from `start` along `delta` crosses a face orthogonal to `axis` within the box, between
the ends of the segment. Lines parallel to the face are not looked at. -/
def crossesFaces (tolerance : α) (half start delta : Vec3 α) (axis : Axis) : Bool :=
  if Scalar.abs (delta.coord axis) ≤ tolerance then false
  else
    let u := axis.next
    let v := u.next
    [-half.coord axis, half.coord axis].any fun face =>
      let t := (face - start.coord axis) / delta.coord axis
      let point := start + delta * t
      Scalar.inUnit t
        && (decide (Scalar.abs (point.coord u) ≤ half.coord u)
          && decide (Scalar.abs (point.coord v) ≤ half.coord v))

/-- The segment may touch the widened box. -/
def mayTouch (c : Culler α) (segment : Segment α) (box : OrientedBox α) : Bool :=
  let box := box.expanded c.safety
  if segment.length < c.tolerance then box.contains segment.start
  else
    nearSphere segment box && (
      let start := box.toLocal segment.start
      let stop := box.toLocal segment.stop
      (box.containsLocal start || box.containsLocal stop)
        || Axis.all.any (crossesFaces c.tolerance box.halfExtents start (stop - start)))

/-- Take one more slab into account; none when the segment misses the slab or leaves the slabs
before so far before it enters this one. -/
def throughSlab (tolerance : α) (half start delta : Vec3 α) (passage : Passage α) (axis : Axis) :
    Option (Passage α) :=
  let s := start.coord axis
  let d := delta.coord axis
  let h := half.coord axis
  if Scalar.abs d ≤ tolerance then
    if h < Scalar.abs s then none else some passage
  else
    let inv := 1 / d
    let t1 := (-h - s) * inv
    let t2 := (h - s) * inv
    let (near, far) := if t1 < t2 then (t1, t2) else (t2, t1)
    -- before any slab was crossed, every parameter that is a number is later
    let later := match passage.entry with
      | none => Scalar.isDefined near
      | some crossing => decide (crossing.t < near)
    let entry :=
      -- going up along the axis enters through the lower face
      if later then some ⟨near, axis, if 0 < d then -1 else 1⟩ else passage.entry
    let exit := match passage.exit with
      | none => if Scalar.isDefined far then some far else none
      | some t => some (Scalar.min t far)
    match entry, exit with
    | some crossing, some t => if t < crossing.t then none else some ⟨entry, exit⟩
    | _, _ => some ⟨entry, exit⟩

/-- The face through which a segment, given in the frame of a box, enters it. -/
def entryFace? (tolerance : α) (half start delta : Vec3 α) : Option (Crossing α) := do
  let passage ← Axis.all.foldlM (throughSlab tolerance half start delta) {}
  let crossing ← passage.entry
  guard (Scalar.inUnit crossing.t)
  return crossing

/-- Where the segment enters the box as it is, without a margin. There is no contact when the
segment misses the box, starts in it or stops short of it. -/
def entryContact? (c : Culler α) (segment : Segment α) (box : OrientedBox α)
    (subject : EntityId) : Option (Contact α) := do
  let start := box.toLocal segment.start
  let crossing ← entryFace? c.tolerance box.halfExtents start (box.toLocal segment.stop - start)
  let position := segment.pointAt crossing.t
  return {
    subject := subject
    depth := (position - segment.start).norm
    normal := box.rotation.apply (Vec3.along crossing.side crossing.axis)
    position := position }

end Culler

end Sightline
