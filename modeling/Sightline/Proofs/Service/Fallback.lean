import Mathlib.Tactic
import Sightline.Proofs.Service.History

/-!
# Boxes for shapes without a mesh

A shape without a mesh is tested as its box. This is not quite the same as giving it the unit box
for a mesh: in the mesh of an uncut parametric shape, faces in a plane that is nearer to the local
origin than the plane tolerance are passed over, and all faces of the unit box are half a unit away
from it. Up to that tolerance no cast can tell the two apart. Above it, an uncut parametric shape
that is given the unit box is as good as absent.
-/

namespace Sightline

/-- The source that has the unit box for what a source has no mesh for. -/
def MeshSource.orBoxes (source : MeshSource) : MeshSource := fun shape detail =>
  match source shape detail with
  | .ok mesh => .ok mesh
  | .error _ => .ok Mesh.unitBox

/-- The group without the parts that fail a test. Its bounds stay as they are. -/
def Group.keepParts (group : Group Float32) (keep : Part Float32 → Bool) : Group Float32 :=
  { group with parts := group.parts.filter keep }

/-- The scene without the parts that fail a test. -/
def Scene.keepParts (scene : Scene) (keep : Part Float32 → Bool) : Scene :=
  { scene with groups := scene.groups.map (·.keepParts keep) }

lemma MeshSource.orBoxes_of_ok {source : MeshSource} {shape : Shape} {detail : DetailLevel}
    {mesh : Mesh Float32} (h : source shape detail = .ok mesh) :
    source.orBoxes shape detail = .ok mesh := by
  rw [orBoxes, h]

lemma Scene.keepParts_eq_self {scene : Scene} {keep : Part Float32 → Bool}
    (h : ∀ group ∈ scene.groups, ∀ part ∈ group.parts, keep part = true) :
    scene.keepParts keep = scene := by
  have hgroups : scene.groups.map (·.keepParts keep) = scene.groups := by
    refine (List.map_congr_left fun group hgroup => ?_).trans (List.map_id _)
    rw [Group.keepParts, List.filter_eq_self.mpr (h group hgroup), id]
  rw [keepParts, hgroups]

/-! ### The faces of the unit box -/

lemma Mesh.norm_scaledNormal_unitBox :
    ∀ tri ∈ (Mesh.unitBox : Mesh Float32).triangles, tri.scaledNormal.norm = 1 := by
  decide +kernel

lemma Mesh.abs_dot_scaledNormal_unitBox :
    ∀ tri ∈ (Mesh.unitBox : Mesh Float32).triangles,
      Scalar.abs ((tri.scaledNormal / (1 : Float32)).dot tri.a) = 0.5 := by
  decide +kernel

/-- Where a face of the unit box has a normal, the face is half a unit away from the origin. -/
lemma Mesh.abs_offset_unitBox {tri : Triangle Float32}
    (htri : tri ∈ (Mesh.unitBox : Mesh Float32).triangles) {tolerance : Float32}
    {normal : Vec3 Float32} (hnormal : tri.normal? tolerance = some normal) :
    Scalar.abs (normal.dot tri.a) = 0.5 := by
  obtain ⟨-, rfl⟩ : tolerance ≤ tri.scaledNormal.norm ∧
      tri.scaledNormal / tri.scaledNormal.norm = normal := by
    simpa [Triangle.normal?] using hnormal
  rw [Mesh.norm_scaledNormal_unitBox tri htri]
  exact Mesh.abs_dot_scaledNormal_unitBox tri htri

/-- All faces of the unit box are passed over in a shape of a family. -/
def SurfaceTest.PassesOver (test : SurfaceTest Float32) (family : Family) : Prop :=
  family.traits.endCaps = false ∧ (0.5 : Float32) < test.planeTolerance

instance (test : SurfaceTest Float32) (family : Family) : Decidable (test.PassesOver family) :=
  inferInstanceAs (Decidable (_ ∧ _))

section Faces

variable {test : SurfaceTest Float32} {segment : Segment Float32} {placement : Placement Float32}
  {family : Family} {tri : Triangle Float32}

lemma SurfaceTest.PassesOver.intersect?_eq_none (h : test.PassesOver family)
    (htri : tri ∈ (Mesh.unitBox : Mesh Float32).triangles) :
    test.intersect? (.make segment placement family.traits) tri = none := by
  obtain ⟨hcaps, hless⟩ := h
  unfold intersect?
  cases hnormal : tri.normal? test.tolerance with
  | none => rfl
  | some normal =>
    have hoffset := Mesh.abs_offset_unitBox htri hnormal
    simp [RayFrame.make, hcaps, hoffset, hless]

lemma SurfaceTest.intersect?_eq_boundingBox (h : ¬ test.PassesOver family)
    (hexits : family.traits.exitHits = true)
    (htri : tri ∈ (Mesh.unitBox : Mesh Float32).triangles) :
    test.intersect? (.make segment placement family.traits) tri =
      test.intersect? (.make segment placement Family.boundingBox.traits) tri := by
  obtain ⟨endCaps, exitHits, htraits⟩ : ∃ endCaps exitHits, family.traits = ⟨endCaps, exitHits⟩ :=
    ⟨_, _, rfl⟩
  obtain rfl : exitHits = true := by rwa [htraits] at hexits
  rw [htraits]
  cases endCaps with
  | true => rfl
  | false =>
    have hless : ¬ (0.5 : Float32) < test.planeTolerance := by simpa [PassesOver, htraits] using h
    unfold intersect?
    cases hnormal : tri.normal? test.tolerance with
    | none => rfl
    | some normal =>
      have hoffset := Mesh.abs_offset_unitBox htri hnormal
      simp only [Option.bind_eq_bind, Option.bind_some, RayFrame.make, hoffset, hless, decide_false,
        Bool.and_false]
      rfl

end Faces

/-! ### Shapes -/

namespace Caster

variable {c : Caster} {source : MeshSource} {segment : Segment Float32}

lemma meshHits_unitBox {family : Family} (hexits : family.traits.exitHits = true)
    (placement : Placement Float32) (owner : Owner) :
    c.meshHits segment placement owner Mesh.unitBox family =
      if c.surface.PassesOver family then []
      else c.meshHits segment placement owner Mesh.unitBox .boundingBox := by
  unfold meshHits
  split
  next hover =>
    refine List.filterMap_eq_nil_iff.mpr fun tri htri => ?_
    rw [hover.intersect?_eq_none htri, Option.map_none]
  next hover =>
    refine List.filterMap_congr fun tri htri => ?_
    rw [SurfaceTest.intersect?_eq_boundingBox hover hexits htri]

/-- If a shape that has no mesh is given the unit box, its faces are not passed over. -/
def showsBox (c : Caster) (source : MeshSource) (shape : Shape) (family : Family) : Bool :=
  (source shape (c.library.detail.forClass family.detailClass)).isOk ||
    !decide (c.surface.PassesOver family)

/-- Giving a shape the unit box for a mesh that it does not have either changes nothing or takes all
hits away. -/
lemma shapeHits_orBoxes {family : Family} (hexits : family.traits.exitHits = true)
    (placement : Placement Float32) (shape : Shape) (owner : Owner) :
    c.shapeHits source.orBoxes segment placement shape family owner =
      if c.showsBox source shape family then c.shapeHits source segment placement shape family owner
      else [] := by
  unfold shapeHits showsBox MeshSource.orBoxes
  cases placement.isInvertible with
  | false => simp
  | true =>
    cases source shape (c.library.detail.forClass family.detailClass) with
    | ok mesh => simp [Except.isOk, Except.toBool]
    | error e => simpa [resolveMesh, Except.isOk, Except.toBool] using meshHits_unitBox hexits _ _

end Caster

lemma Shape.family_exitHits (shape : Shape) : shape.family.traits.exitHits = true := by
  unfold Shape.family
  split
  · rfl
  · rfl
  · split <;> rfl

/-! ### Scenes -/

namespace Caster

variable {c : Caster} {source : MeshSource} {segment : Segment Float32}

lemma avatarCandidate_orBoxes (avatar : Avatar Float32) :
    c.avatarCandidate source.orBoxes segment avatar = c.avatarCandidate source segment avatar := by
  unfold avatarCandidate avatarHits
  cases c.avatarShape with
  | box => rfl
  | ellipsoid =>
    have hexits : Family.avatar.traits.exitHits = true := rfl
    have hshows : c.showsBox source Shape.sphere .avatar = true := by
      simp [showsBox, SurfaceTest.PassesOver, Family.traits]
    simp [shapeHits_orBoxes hexits, hshows]

lemma hitsOn_partCandidate_orBoxes (group : Group Float32) (part : Part Float32) :
    c.hitsOn segment (c.partCandidate source.orBoxes segment group part) =
      if c.showsBox source part.shape part.shape.family then
        c.hitsOn segment (c.partCandidate source segment group part)
      else [] := by
  unfold hitsOn admits partCandidate partHits
  rw [shapeHits_orBoxes part.shape.family_exitHits]
  split <;> simp

/-- The scene without the parts whose faces would be passed over if they were given the unit box. -/
def shownBoxes (c : Caster) (source : MeshSource) (scene : Scene) : Scene :=
  scene.keepParts fun part => c.showsBox source part.shape part.shape.family

lemma flatMap_hitsOn_filter (group : Group Float32) (keep : Part Float32 → Bool)
    (parts : List (Part Float32)) :
    ((parts.filter keep).map (c.partCandidate source segment group)).flatMap (c.hitsOn segment) =
      parts.flatMap fun part =>
        if keep part then c.hitsOn segment (c.partCandidate source segment group part) else [] := by
  induction parts with
  | nil => rfl
  | cons part rest ih =>
    cases hkeep : keep part with
    | false => simp [hkeep, ih]
    | true => simp [hkeep, ih]

@[simp] lemma partCandidate_keepParts (group : Group Float32) (keep : Part Float32 → Bool) :
    c.partCandidate source segment (group.keepParts keep) =
      c.partCandidate source segment group := rfl

@[simp] lemma selects_keepParts (request : Request) (own : Option EntityId)
    (group : Group Float32) (keep : Part Float32 → Bool) :
    selects request own (group.keepParts keep) = selects request own group := rfl

/-- What is gathered from the parts of a group with boxes in place of missing meshes. -/
lemma flatMap_hitsOn_orBoxes (group : Group Float32) :
    let rest := group.keepParts fun part => c.showsBox source part.shape part.shape.family
    (group.parts.map (c.partCandidate source.orBoxes segment group)).flatMap (c.hitsOn segment) =
      (rest.parts.map (c.partCandidate source segment rest)).flatMap (c.hitsOn segment) := by
  intro rest
  have hrest : rest.parts = group.parts.filter fun part =>
      c.showsBox source part.shape part.shape.family := rfl
  rw [partCandidate_keepParts, hrest, flatMap_hitsOn_filter, List.flatMap_map]
  exact List.flatMap_congr fun part _ => hitsOn_partCandidate_orBoxes group part

/-- What is gathered with boxes in place of missing meshes is what is gathered from the parts that
are left over. -/
lemma gathered_orBoxes (scene : Scene) (own : Option EntityId) (request : Request) :
    c.gathered source.orBoxes scene own request =
      c.gathered source (c.shownBoxes source scene) own request := by
  have havatars : c.avatarCandidate source.orBoxes request.segment =
      c.avatarCandidate source request.segment := funext avatarCandidate_orBoxes
  have hgroups : (c.shownBoxes source scene).groups.filter (selects request own) =
      (scene.groups.filter (selects request own)).map (·.keepParts fun part =>
        c.showsBox source part.shape part.shape.family) := by
    rw [shownBoxes, Scene.keepParts, List.filter_map]
    rfl
  have hothers : (c.shownBoxes source scene).avatars = scene.avatars ∧
      (c.shownBoxes source scene).ground = scene.ground := ⟨rfl, rfl⟩
  unfold gathered candidates
  rw [havatars, hgroups, hothers.1, hothers.2, List.flatMap_append, List.flatMap_append,
    List.flatMap_append, List.flatMap_append]
  cases request.wantsObjects with
  | false => rw [if_neg Bool.false_ne_true, if_neg Bool.false_ne_true]
  | true =>
    rw [if_pos rfl, if_pos rfl, List.flatMap_assoc, List.flatMap_assoc, List.flatMap_map,
      funext fun group => flatMap_hitsOn_orBoxes group]

end Caster

namespace Service

/-- The service with another generator. -/
def withGenerator (service : Service) (generator : MeshGenerator) : Service :=
  { service with generator := generator }

variable {service : Service} {source : MeshSource} {boxes : MeshGenerator}

lemma shownBoxes_eq_self {scene : Scene}
    (h : ¬ (0.5 : Float32) < service.settings.tolerances.dedupTolerance ∨
      ∀ group ∈ scene.groups, ∀ part ∈ group.parts, part.shape.family = .closedPrim →
        (source part.shape service.settings.detail.prim).isOk = true) :
    service.caster.shownBoxes source scene = scene := by
  refine Scene.keepParts_eq_self fun group hgroup part hpart => ?_
  unfold Caster.showsBox SurfaceTest.PassesOver
  rcases h with hless | hmeshes
  · have hless : ¬ (0.5 : Float32) < service.caster.surface.planeTolerance := hless
    simp [hless]
  · cases hfamily : part.shape.family with
    | closedPrim =>
      have hmesh : (source part.shape
          (service.caster.library.detail.forClass Family.closedPrim.detailClass)).isOk = true :=
        hmeshes group hgroup part hpart hfamily
      simp [hmesh]
    | _ => simp [Family.traits]

lemma outcome_orBoxes (scene : Scene) (own : Option EntityId) (request : Request) :
    (service.withGenerator boxes).outcome (service.withGenerator boxes).caster source.orBoxes scene
        own request =
      service.outcome service.caster source (service.caster.shownBoxes source scene) own
        request := by
  have hgathered : service.caster.gathered source.orBoxes scene own request =
      service.caster.gathered source (service.caster.shownBoxes source scene) own request :=
    Caster.gathered_orBoxes scene own request
  unfold outcome
  rw [← hgathered]
  rfl

/-- A service that is given boxes in place of missing meshes answers as it would without them in
what is left of the scene. That is the whole scene up to a plane tolerance of one half; above it,
the uncut parametric shapes without a mesh are missing. -/
theorem castRequest_orBoxes (service : Service) (source : MeshSource) (boxes : MeshGenerator)
    (hgives : service.generator.Gives source) (hboxes : boxes.Gives source.orBoxes)
    (clock : Clock) (calls : List ServiceCall) :
    let state := service.after (service.initial clock) calls
    let boxed := service.withGenerator boxes
    ∀ (scene : Scene) (caller : Caller) (request : Request),
      let shown := service.caster.shownBoxes source scene
      ((¬ (0.5 : Float32) < service.settings.tolerances.dedupTolerance ∨
        ∀ group ∈ scene.groups, ∀ part ∈ group.parts, part.shape.family = .closedPrim →
          (source part.shape service.settings.detail.prim).isOk = true) → shown = scene) ∧
      (boxed.castRequest scene caller request state).value =
        (service.castRequest shown caller request state).value ∧
      ∀ clock' calls' (caller' : Caller), caller'.group = caller.group →
        let state' := boxed.after (boxed.initial clock') calls'
        ∀ outcome outcome',
          (service.castRequest shown caller request state).value = .ok outcome →
          (boxed.castRequest scene caller' request state').value = .ok outcome' →
          outcome' = outcome := by
  intro state boxed scene caller request shown
  have hagrees : state.cache.Agrees source.ofKey := after_initial_agrees hgives clock calls
  refine ⟨shownBoxes_eq_self, ?_, ?_⟩
  · have hpruned : (service.pruned state).cache.Agrees source.ofKey := hagrees
    have hpruned' : (boxed.pruned state).cache.Agrees source.orBoxes.ofKey :=
      fun s hs => MeshSource.orBoxes_of_ok (hagrees s hs)
    have hrun : (boxed.run boxed.caster scene caller.group request (boxed.pruned state)).value =
        (service.run service.caster shown caller.group request (service.pruned state)).value := by
      rw [(boxed.run_of_gives hboxes hpruned' scene caller.group request).1,
        (service.run_of_gives hgives hpruned shown caller.group request).1, outcome_orBoxes]
    rw [castRequest, castRequest, castRequestWith_value, castRequestWith_value, hrun]
    rfl
  · intro clock' calls' caller' hgroup state' outcome outcome' h h'
    have hgives' : boxed.generator.Gives source.orBoxes := hboxes
    have hagrees' : state'.cache.Agrees source.orBoxes.ofKey :=
      after_initial_agrees hgives' clock' calls'
    rw [(castRequest_of_gives hgives hagrees shown caller request).1 outcome h,
      (castRequest_of_gives hgives' hagrees' scene caller' request).1 outcome' h', outcome_orBoxes,
      hgroup]

/-- A sphere without a mesh is hit as the unit box that it is given. -/
theorem castRequest_orBoxes_sphere :
    let service : Service := ⟨{}, MeshGenerator.boxes⟩
    let source : MeshSource := fun shape _ => MeshGenerator.boxMesh shape
    let boxed := service.withGenerator fun shape detail clock =>
      (source.orBoxes shape detail, clock)
    let scene : Scene := { groups := [Group.single ⟨1⟩ Placement.identity .sphere] }
    let caller : Caller := ⟨⟨1⟩, ⟨1⟩, none⟩
    let request : Request := { segment := ⟨⟨-2, 0, 0⟩, ⟨2, 0, 0⟩⟩ }
    let state := service.initial .zero
    service.caster.gathered source scene none request ≠ [] ∧
    (boxed.castRequest scene caller request state).value =
      (service.castRequest scene caller request state).value := by
  intro service source boxed scene caller request state
  have hgives : service.generator.Gives source := fun _ _ _ => rfl
  have hboxes : boxed.generator.Gives source.orBoxes := fun _ _ _ => rfl
  have horBoxes := service.castRequest_orBoxes source boxed.generator hgives hboxes .zero [] scene
    caller request
  have hshown : service.caster.shownBoxes source scene = scene :=
    horBoxes.1 (Or.inl (by decide +kernel))
  refine ⟨?_, ?_⟩
  · rw [Ne, ← List.isEmpty_iff]
    decide +kernel
  · have hvalue := horBoxes.2.1
    rwa [hshown] at hvalue

/-- With a plane tolerance of one, a sphere without a mesh is hit, but no longer once it is given
the unit box. -/
theorem unit_box_missed :
    let service : Service := ⟨{ tolerances := { dedupTolerance := 1 } }, MeshGenerator.boxes⟩
    let boxes : MeshGenerator := fun shape detail clock =>
      (match (service.generator shape detail clock).1 with
        | .ok mesh => .ok mesh
        | .error _ => .ok Mesh.unitBox, clock)
    let scene : Scene := { groups := [Group.single ⟨1⟩ Placement.identity .sphere] }
    let caller : Caller := ⟨⟨1⟩, ⟨1⟩, none⟩
    let request : Request := { segment := ⟨⟨-2, 0, 0⟩, ⟨2, 0, 0⟩⟩ }
    let state := service.initial .zero
    service.settings.validate.isOk = true ∧
    service.parseRequest request.segment.start request.segment.stop [] = .ok request ∧
    ((service.withGenerator boxes).castRequest scene caller request state).value = .ok .noHit ∧
    ∃ hits, (service.castRequest scene caller request state).value = .ok (.hits hits) := by
  intro service boxes scene caller request state
  let source : MeshSource := fun shape _ => MeshGenerator.boxMesh shape
  let boxed := service.withGenerator boxes
  have hgives : service.generator.Gives source := fun _ _ _ => rfl
  have hgives' : boxed.generator.Gives source.orBoxes := fun _ _ _ => rfl
  have hagrees : state.cache.Agrees source.ofKey := Cache.agrees_empty _ _
  have hagrees' : state.cache.Agrees source.orBoxes.ofKey := Cache.agrees_empty _ _
  refine ⟨by decide +kernel, ?_, ?_, ?_⟩
  · have hfinite : request.segment.isFinite = true := by decide +kernel
    simp only [parseRequest, Request.parse, hfinite]
    rfl
  · have hok : (boxed.castRequest scene caller request state).value.isOk = true := by decide +kernel
    have hnone : boxed.caster.gathered source.orBoxes scene caller.group request = [] :=
      List.isEmpty_iff.mp (by decide +kernel)
    have hvalue := castRequestWith_value_of_isOk hgives' hagrees' hok
    rwa [outcome_eq_noHit_iff.mpr (Or.inr (Or.inl hnone))] at hvalue
  · have hok : (service.castRequest scene caller request state).value.isOk = true := by
      decide +kernel
    have hsome : service.outcome service.caster source scene caller.group request ≠ .noHit := by
      rw [Ne, outcome_eq_noHit_iff, ← List.isEmpty_iff]
      decide +kernel
    have hvalue := castRequestWith_value_of_isOk hgives hagrees hok
    cases houtcome : service.outcome service.caster source scene caller.group request with
    | noHit => exact absurd houtcome hsome
    | hits hits => exact ⟨hits, houtcome ▸ hvalue⟩

end Service

end Sightline
