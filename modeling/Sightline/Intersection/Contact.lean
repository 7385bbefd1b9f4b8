import Sightline.Geometry.Vector
import Sightline.Identity

/-!
# Contacts

What is met without looking at single parts: the box of an avatar, or the ground.
-/

namespace Sightline

/-- A ray meeting something as a whole. -/
structure Contact (α : Type) where
  subject : EntityId
  /-- Distance from the start of the ray. -/
  depth : α
  normal : Vec3 α
  position : Vec3 α

end Sightline
