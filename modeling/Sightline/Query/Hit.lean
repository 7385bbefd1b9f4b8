import Sightline.Geometry.Vector
import Sightline.Identity
import Sightline.Intersection.Contact
import Sightline.Intersection.Surface
import Sightline.Single

/-!
# Hits

What a ray meets, in world coordinates, and the order hits are reported in: by distance first, and
by names where distances are equal.

Distances are ordered by the total order of binary interchange formats, in which negative zero comes
before zero, and a distance that is no number comes before or after all others by the sign of its
bit pattern. A distance is therefore kept as a bit pattern.
-/

namespace Sightline

/-- The distance of a hit from the start of the ray, as the bit pattern of a single. -/
structure Distance where
  bits : UInt32
deriving DecidableEq, Repr

namespace Distance

/-- The bit pattern of a sum or product that has no value. -/
def undefinedBits : UInt32 := 0xffc00000

def ofSingle (x : Float32) : Distance := ⟨if x.isNaN then undefinedBits else x.toBits⟩

def toSingle (d : Distance) : Float32 := Float32.ofBits d.bits

/-- The place of a distance in the total order. -/
def rank (d : Distance) : Int :=
  let n : Int := d.bits.toNat
  -- with the sign set, what is greater in magnitude comes earlier
  if n < 0x80000000 then n else 0x7fffffff - n

def near (tolerance : Float32) (d e : Distance) : Bool :=
  decide ((d.toSingle - e.toSingle).abs < tolerance)

end Distance

/-- Who owns the surface that is hit. -/
structure Owner where
  /-- The part, the avatar, or the ground. -/
  part : EntityId
  group : EntityId
  link : Int32
deriving DecidableEq, Repr

namespace Owner

def avatar (id : EntityId) : Owner := ⟨id, id, 0⟩

def ground : Owner := ⟨.terrain, .terrain, 0⟩

end Owner

structure Hit where
  part : EntityId
  group : EntityId
  link : Int32
  position : Vec3 Float32
  normal : Vec3 Float32
  distance : Distance

namespace Hit

def ofSurface (owner : Owner) (hit : SurfaceHit Float32) : Hit where
  part := owner.part
  group := owner.group
  link := owner.link
  position := hit.position
  normal := hit.normal
  distance := .ofSingle hit.distance

def ofContact (owner : Owner) (contact : Contact Float32) : Hit where
  part := owner.part
  group := owner.group
  link := owner.link
  position := contact.position
  normal := contact.normal
  distance := .ofSingle contact.depth

/-- The order of hits: by distance, then by part, then by group. -/
def le (a b : Hit) : Bool :=
  if a.distance.rank = b.distance.rank then
    if a.part.value = b.part.value then a.group.value ≤ b.group.value
    else a.part.value < b.part.value
  else a.distance.rank < b.distance.rank

end Hit

end Sightline
