import Sightline.Event
import Sightline.Intersection.Culler
import Sightline.Mesh.Library
import Sightline.Query.Collector
import Sightline.Query.Request
import Sightline.Scene.Basic
import Sightline.Terrain.Survey

/-!
# Sweeps

One cast goes through the scene: the avatars first, then the parts of the groups, then the ground.
On the way it gathers hits, uses the mesh cache and lets time pass. What can be left out is left out
by a gate in front of each box; a sweep takes the gate as it is given, so that a sweep with another
gate can be compared with it.
-/

namespace Sightline

def Survey.event (survey : Survey) : Event :=
  if survey.skipped then .groundSkipped survey.strip.cells.length
  else .groundTested survey.strip.cells.length survey.contacts.length

/-- What a sweep works with. -/
structure Caster where
  library : MeshLibrary
  surface : SurfaceTest Float32
  culler : Culler Float32
  /-- Whether what is in a box is looked at. -/
  gate : Segment Float32 → OrientedBox Float32 → Bool
  avatarShape : AvatarShape

/-- Where a sweep has come to. -/
structure Sweep where
  cache : MeshCache
  clock : Clock
  collector : Collector
  tally : Tally := {}
  events : List Event := []

namespace Sweep

def report (s : Sweep) (events : List Event) : Sweep := { s with events := s.events ++ events }

def collect (s : Sweep) (hits : List Hit) : Sweep := { s with collector := s.collector.extend hits }

def count (s : Sweep) (f : Tally → Tally) : Sweep := { s with tally := f s.tally }

end Sweep

/-- The mesh a shape is tested with and the rules it is tested by. A shape without a mesh is tested
as its box. -/
def resolveMesh (family : Family) (answer : Except MeshError (Mesh Float32)) :
    Mesh Float32 × Family :=
  match answer with
  | .ok mesh => (mesh, family)
  | .error _ => (Mesh.unitBox, .boundingBox)

namespace Caster

def meshHits (c : Caster) (segment : Segment Float32) (placement : Placement Float32)
    (owner : Owner) (mesh : Mesh Float32) (family : Family) : List Hit :=
  let frame := RayFrame.make segment placement family.traits
  mesh.triangles.filterMap fun tri => (c.surface.intersect? frame tri).map (Hit.ofSurface owner)

/-- Test a shape that stands somewhere. One that is squashed to nothing is passed over. -/
def meetShape (c : Caster) (segment : Segment Float32) (placement : Placement Float32)
    (shape : Shape) (family : Family) (owner : Owner) (s : Sweep) : Sweep :=
  if !placement.isInvertible then s.report [.singularPlacement owner.part]
  else
    let fetched := c.library.meshFor shape family.detailClass s.cache s.clock
    let (mesh, family) := resolveMesh family fetched.answer
    let complaint := match fetched.answer with
      | .ok _ => []
      | .error e => [Event.meshMissing owner.part e]
    let s := { s with cache := fetched.cache, clock := fetched.generated.getD s.clock }
    let s := s.count fun t =>
      { t with
        parts := t.parts + 1
        fallbacks := t.fallbacks + complaint.length
        triangles := t.triangles + mesh.size }
    let s := s.report (fetched.evicted.toList.map (fun _ => .meshEvicted) ++ complaint)
    let s := s.collect (c.meshHits segment placement owner mesh family)
    s.report [.shapeTested owner.part mesh.size]

def meetAvatar (c : Caster) (segment : Segment Float32) (s : Sweep) (avatar : Avatar Float32) :
    Sweep :=
  if !c.gate segment avatar.box then s
  else
    let s := s.count fun t => { t with avatars := t.avatars + 1 }
    let owner := Owner.avatar avatar.id
    match c.avatarShape with
    | .box =>
      s.collect (((c.culler.entryContact? segment avatar.box avatar.id).map
        (Hit.ofContact owner)).toList)
    | .ellipsoid => c.meetShape segment avatar.placement Shape.sphere .avatar owner s

def meetPart (c : Caster) (segment : Segment Float32) (group : EntityId) (s : Sweep)
    (part : Part Float32) : Sweep :=
  if !c.gate segment part.box then s
  else
    c.meetShape segment part.placement part.shape part.shape.family ⟨part.id, group, part.link⟩ s

def meetGroup (c : Caster) (segment : Segment Float32) (s : Sweep) (group : Group Float32) :
    Sweep :=
  let s := s.count fun t => { t with groups := t.groups + 1 }
  if !c.gate segment group.box then
    s.count fun t => { t with groupsCulled := t.groupsCulled + 1 }
  else group.parts.foldl (c.meetPart segment group.id) s

def meetGround (c : Caster) (segment : Segment Float32) (s : Sweep) (ground : Heightmap Float32) :
    Sweep :=
  let test := Survey.surfaceTest c.surface.tolerance c.surface.planeTolerance
  let survey := Survey.run test ground segment
  let s := s.report [survey.event]
  s.collect (survey.contacts.map (Hit.ofContact Owner.ground))

/-- A group is wanted: it is not the caller's own, its kind is not rejected, and if it is phantom or
attached, such groups are asked for. Phantom groups count as not physical. -/
def selects (request : Request) (own : Option EntityId) (group : Group Float32) : Bool :=
  !(own == some group.id)
    && !(group.attachment && !request.detectAttachments)
    && !(group.phantom && !request.detectPhantom)
    && !(if group.physical && !group.phantom then request.reject.physical
      else request.reject.nonphysical)

def sweep (c : Caster) (scene : Scene) (request : Request) (own : Option EntityId) (s : Sweep) :
    Sweep :=
  let segment := request.segment
  let s := if request.wantsAgents then scene.avatars.foldl (c.meetAvatar segment) s else s
  let s :=
    if request.wantsObjects then
      (scene.groups.filter (selects request own)).foldl (c.meetGroup segment) s
    else s
  if request.wantsLand then scene.ground.toList.foldl (c.meetGround segment) s else s

end Caster

end Sightline
