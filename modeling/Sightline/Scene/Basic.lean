import Sightline.Scene.Group
import Sightline.Scene.Heightmap

/-!
# Scenes
-/

namespace Sightline

/-- Everything a ray can hit. -/
structure Scene where
  /-- The objects, attachments among them. -/
  groups : List (Group Float32) := []
  avatars : List (Avatar Float32) := []
  ground : Option (Heightmap Float32) := none

end Sightline
