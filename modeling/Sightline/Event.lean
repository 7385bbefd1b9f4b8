import Sightline.Mesh.Basic
import Sightline.Query.Request
import Sightline.Settings.Basic

/-!
# Events

What a service reports about its work. Events describe what happened and change nothing.
-/

namespace Sightline

/-- How much attention an event deserves. -/
inductive Level where
  | trace
  | debug
  | info
  | warn
deriving DecidableEq, Repr

def Level.name : Level → String
  | .trace => "TRACE"
  | .debug => "DEBUG"
  | .info => "INFO"
  | .warn => "WARN"

/-- What was done in one cast. -/
structure Tally where
  /-- Avatars that were not culled. -/
  avatars : Nat := 0
  /-- Groups that were wanted. -/
  groups : Nat := 0
  groupsCulled : Nat := 0
  parts : Nat := 0
  /-- Shapes that were tested as boxes because they had no mesh. -/
  fallbacks : Nat := 0
  triangles : Nat := 0
deriving DecidableEq, Repr

inductive Event where
  | libraryCreated (capacity : Nat) (detail : DetailLevels)
  | serviceReady (maxHits : Nat) (scope : DedupScope) (avatars : AvatarShape)
  | requestRejected (error : RequestError)
  | callRefused (user : UserId) (region : RegionId) (availableMs : Float32)
  | zeroLength
  /-- A shape is squashed or stands nowhere. -/
  | singularPlacement (part : EntityId)
  | meshEvicted
  | meshMissing (part : EntityId) (error : MeshError)
  | shapeTested (part : EntityId) (triangles : Nat)
  | groundSkipped (cells : Nat)
  | groundTested (cells contacts : Nat)
  | castDone (tally : Tally) (collected duplicates returned : Nat)

namespace Event

def level : Event → Level
  | zeroLength | singularPlacement .. | meshEvicted | shapeTested .. | groundSkipped ..
  | groundTested .. => .trace
  | libraryCreated .. | requestRejected .. | callRefused .. | castDone .. => .debug
  | serviceReady .. => .info
  | meshMissing .. => .warn

def scopeName : DedupScope → String
  | .perPart => "PerPart"
  | .adjacent => "Adjacent"

def avatarName : AvatarShape → String
  | .box => "Box"
  | .ellipsoid => "Ellipsoid"

def detailText (d : DetailLevels) : String :=
  let fields := s!"prim: {d.prim.name}, sculpt: {d.sculpt.name}, mesh: {d.mesh.name}"
  s!"DetailLevels \x7b {fields}, avatar: {d.avatar.name} \x7d"

def tallyText (t : Tally) : String :=
  let groups := s!"{t.groupsCulled}/{t.groups} groups culled"
  let work := s!"{t.parts} parts, {t.triangles} triangles, {t.fallbacks} mesh fallbacks"
  s!"{t.avatars} avatars, {groups}, {work}"

def text : Event → String
  | libraryCreated capacity detail =>
    s!"Mesh provider created (capacity {capacity}, detail {detailText detail})"
  | serviceReady maxHits scope avatars =>
    let dedup := s!"dedup {scopeName scope}, avatars as {avatarName avatars}"
    s!"Ray-cast service ready (max {maxHits} hits, {dedup})"
  | requestRejected error => s!"Rejected ray cast: {error.message}"
  | callRefused user region availableMs =>
    let who := s!"AgentId({user.value.toNat}) in RegionId({region.value.toNat})"
    s!"Ray cast throttled for {who}: {millisText availableMs} ms available"
  | zeroLength => "Zero-length ray"
  | singularPlacement part => s!"Skipping {part.text} with a singular transform"
  | meshEvicted => "Evicted mesh"
  | meshMissing part error =>
    s!"No mesh for {part.text} ({error.message}); testing its bounding box"
  | shapeTested part triangles => s!"Tested {part.text} ({triangles} triangles)"
  | groundSkipped cells => s!"Terrain skipped after {cells} cells"
  | groundTested cells contacts => s!"Terrain walk: {cells} cells, {contacts} contacts"
  | castDone tally collected duplicates returned =>
    let found := s!"{collected} hits ({duplicates} duplicates), {returned} returned"
    s!"Ray cast: {tallyText tally}, {found}"

def line (e : Event) : String := s!"{e.level.name} {e.text}"

end Event

end Sightline
