import Mathlib.Tactic
import Sightline.Proofs.Collector.Report
import Sightline.Proofs.Mesh.Agreement
import Sightline.Proofs.Service.Casting

/-!
# What a sweep gathers

If all meshes come from one source, a sweep gathers the hits on all candidates whose boxes the gate
lets through, one candidate after the other, whatever the cache holds. What a run comes to is
therefore a function of the scene and the request.
-/

namespace Sightline

/-- A thing that may be hit. -/
structure Candidate where
  /-- The boxes around it, the outermost first. -/
  boxes : List (OrientedBox Float32)
  /-- Where it is hit once the boxes are passed. -/
  hits : List Hit

namespace Caster

section Candidates

variable (c : Caster) (source : MeshSource) (segment : Segment Float32)

/-- The hits on a shape that stands somewhere. -/
def shapeHits (placement : Placement Float32) (shape : Shape) (family : Family) (owner : Owner) :
    List Hit :=
  if placement.isInvertible then
    let answer := source shape (c.library.detail.forClass family.detailClass)
    let (mesh, family) := resolveMesh family answer
    c.meshHits segment placement owner mesh family
  else []

def avatarHits (avatar : Avatar Float32) : List Hit :=
  let owner := Owner.avatar avatar.id
  match c.avatarShape with
  | .box =>
    ((c.culler.entryContact? segment avatar.box avatar.id).map (Hit.ofContact owner)).toList
  | .ellipsoid => c.shapeHits source segment avatar.placement Shape.sphere .avatar owner

def partHits (group : EntityId) (part : Part Float32) : List Hit :=
  c.shapeHits source segment part.placement part.shape part.shape.family
    ⟨part.id, group, part.link⟩

def groundHits (ground : Heightmap Float32) : List Hit :=
  let test := Survey.surfaceTest c.surface.tolerance c.surface.planeTolerance
  (Survey.run test ground segment).contacts.map (Hit.ofContact Owner.ground)

def avatarCandidate (avatar : Avatar Float32) : Candidate :=
  ⟨[avatar.box], c.avatarHits source segment avatar⟩

def partCandidate (group : Group Float32) (part : Part Float32) : Candidate :=
  ⟨[group.box, part.box], c.partHits source segment group.id part⟩

def groundCandidate (ground : Heightmap Float32) : Candidate := ⟨[], c.groundHits segment ground⟩

/-- All that a request asks for, in the order in which it is met. -/
def candidates (scene : Scene) (own : Option EntityId) (request : Request) : List Candidate :=
  (if request.wantsAgents then
      scene.avatars.map (c.avatarCandidate source request.segment) else []) ++
    (if request.wantsObjects then
      (scene.groups.filter (selects request own)).flatMap fun group =>
        group.parts.map (c.partCandidate source request.segment group) else []) ++
    (if request.wantsLand then
      scene.ground.toList.map (c.groundCandidate request.segment) else [])

/-- The gate lets the segment look into every box of a candidate. -/
def admits (candidate : Candidate) : Bool := candidate.boxes.all (c.gate segment)

/-- The hits on a candidate, if the gate lets it through. -/
def hitsOn (candidate : Candidate) : List Hit :=
  if c.admits segment candidate then candidate.hits else []

/-- The hits on all that a request asks for. -/
def gathered (scene : Scene) (own : Option EntityId) (request : Request) : List Hit :=
  (c.candidates source scene own request).flatMap (c.hitsOn request.segment)

end Candidates

end Caster

/-! ### Steps of a sweep -/

@[simp] lemma Sweep.count_cache (s : Sweep) (f : Tally → Tally) :
    (s.count f).cache = s.cache := rfl

@[simp] lemma Sweep.count_collector (s : Sweep) (f : Tally → Tally) :
    (s.count f).collector = s.collector := rfl

/-- As long as the cache agrees with the source, a step takes in the hits, and the cache keeps
agreeing. -/
def Sweep.Gathers (source : MeshSource) (step : Sweep → Sweep) (hits : List Hit) : Prop :=
  ∀ s : Sweep, s.cache.Agrees source.ofKey →
    (step s).cache.Agrees source.ofKey ∧ (step s).collector = s.collector.extend hits

namespace Sweep.Gathers

variable {source : MeshSource} {f g : Sweep → Sweep} {hits others : List Hit}

lemma idle : Gathers source id [] := by
  intro s h
  exact ⟨h, by simp [Collector.extend]⟩

lemma comp (hg : Gathers source g others) (hf : Gathers source f hits) :
    Gathers source (fun s => g (f s)) (hits ++ others) := by
  intro s h
  obtain ⟨hagrees, hcollector⟩ := hf s h
  obtain ⟨hagrees', hcollector'⟩ := hg (f s) hagrees
  refine ⟨hagrees', ?_⟩
  rw [hcollector', hcollector]
  simp [Collector.extend]

/-- One step for each of several things. -/
lemma foldl {β : Type} {step : Sweep → β → Sweep} {found : β → List Hit}
    (hstep : ∀ b, Gathers source (step · b) (found b)) (list : List β) :
    Gathers source (fun s => list.foldl step s) (list.flatMap found) := by
  induction list with
  | nil => exact idle
  | cons b rest ih => exact ih.comp (hstep b)

/-- A step that is taken only if it is wanted. -/
lemma guarded (hf : Gathers source f hits) (wanted : Bool) :
    Gathers source (fun s => if wanted then f s else s) (if wanted then hits else []) := by
  cases wanted with
  | false => exact idle
  | true => exact hf

end Sweep.Gathers

namespace Caster

variable {c : Caster} {source : MeshSource}

open Sweep

lemma meetShape_gathers (hgives : c.library.generator.Gives source) (segment : Segment Float32)
    (placement : Placement Float32) (shape : Shape) (family : Family) (owner : Owner) :
    Gathers source (c.meetShape segment placement shape family owner)
      (c.shapeHits source segment placement shape family owner) := by
  intro s h
  unfold meetShape shapeHits
  cases placement.isInvertible with
  | false => exact Gathers.idle s h
  | true =>
    obtain ⟨hanswer, hagrees⟩ := MeshLibrary.meshFor_of_gives hgives h shape family.detailClass
      s.clock
    refine ⟨hagrees, ?_⟩
    rw [← hanswer]
    rfl

lemma meetAvatar_gathers (hgives : c.library.generator.Gives source) (segment : Segment Float32)
    (avatar : Avatar Float32) :
    Gathers source (c.meetAvatar segment · avatar)
      (c.hitsOn segment (c.avatarCandidate source segment avatar)) := by
  intro s h
  unfold meetAvatar hitsOn admits avatarCandidate avatarHits
  cases hgate : c.gate segment avatar.box with
  | false => simpa [hgate] using Gathers.idle s h
  | true =>
    cases hshape : c.avatarShape with
    | box => simpa [hgate] using ⟨h, rfl⟩
    | ellipsoid => simpa [hgate] using meetShape_gathers hgives segment _ _ _ _ (s.count _) h

lemma meetPart_gathers (hgives : c.library.generator.Gives source) (segment : Segment Float32)
    (group : EntityId) (part : Part Float32) :
    Gathers source (c.meetPart segment group · part)
      (if c.gate segment part.box then c.partHits source segment group part else []) := by
  intro s h
  unfold meetPart partHits
  cases hgate : c.gate segment part.box with
  | false => exact Gathers.idle s h
  | true => exact meetShape_gathers hgives segment _ _ _ _ s h

lemma meetGroup_gathers (hgives : c.library.generator.Gives source) (segment : Segment Float32)
    (group : Group Float32) :
    Gathers source (c.meetGroup segment · group)
      ((group.parts.map (c.partCandidate source segment group)).flatMap (c.hitsOn segment)) := by
  intro s h
  rw [List.flatMap_map]
  unfold meetGroup hitsOn admits partCandidate
  cases hgate : c.gate segment group.box with
  | false =>
    -- the parts are not even looked at, and as candidates they fail at their first box
    have hnone : group.parts.flatMap (fun _ => ([] : List Hit)) = [] := by simp
    simpa [hgate, hnone] using Gathers.idle s h
  | true =>
    have hparts := Gathers.foldl (meetPart_gathers hgives segment group.id) group.parts
    simpa [hgate] using hparts (s.count _) h

lemma meetGround_gathers (c : Caster) (source : MeshSource) (segment : Segment Float32)
    (ground : Heightmap Float32) :
    Gathers source (c.meetGround segment · ground)
      (c.hitsOn segment (c.groundCandidate segment ground)) := by
  intro s h
  exact ⟨h, rfl⟩

/-- A sweep gathers the hits on all that is asked for and let through. -/
theorem sweep_gathers (hgives : c.library.generator.Gives source) (scene : Scene)
    (own : Option EntityId) (request : Request) :
    Gathers source (c.sweep scene request own) (c.gathered source scene own request) := by
  let segment := request.segment
  have havatars := (Gathers.foldl (meetAvatar_gathers hgives segment) scene.avatars).guarded
    request.wantsAgents
  have hgroups := (Gathers.foldl (meetGroup_gathers hgives segment)
    (scene.groups.filter (selects request own))).guarded request.wantsObjects
  have hground := (Gathers.foldl (meetGround_gathers c source segment)
    scene.ground.toList).guarded request.wantsLand
  have hall := (hground.comp hgroups).comp havatars
  have hhits (wanted : Bool) (list : List Candidate) :
      (if wanted then list else []).flatMap (c.hitsOn request.segment) =
        if wanted then list.flatMap (c.hitsOn request.segment) else [] := by
    cases wanted <;> rfl
  rw [gathered, candidates, List.flatMap_append, List.flatMap_append, List.append_assoc, hhits,
    hhits, hhits, List.flatMap_map, List.flatMap_map, List.flatMap_assoc]
  exact hall

end Caster

/-! ### Runs and casts -/

namespace Service

variable {service : Service} {caster : Caster} {source : MeshSource} {state : ServiceState}
  {scene : Scene} {own : Option EntityId} {caller : Caller} {request : Request}

/-- What a request comes to, if it is allowed. -/
def outcome (service : Service) (caster : Caster) (source : MeshSource) (scene : Scene)
    (own : Option EntityId) (request : Request) : Outcome :=
  if service.isZeroLength request then .noHit
  else
    let gathered := service.collector.extend (caster.gathered source scene own request)
    gathered.dedup.finish request.maxHits

/-- Nothing is hit if nothing is gathered, or if nothing may be gathered or reported. -/
lemma outcome_eq_noHit_iff :
    service.outcome caster source scene own request = .noHit ↔
      service.isZeroLength request = true ∨ caster.gathered source scene own request = [] ∨
      request.maxHits = 0 ∨ service.settings.limits.maxHits = 0 ∨
      service.settings.limits.perPart = 0 ∨ service.settings.limits.perGroup = 0 := by
  unfold outcome
  cases service.isZeroLength request with
  | true => simp
  | false =>
    let gathered := service.collector.extend (caster.gathered source scene own request)
    have hreports := (gathered.dedup.finish_reports request.maxHits).noHit_iff
    rw [Collector.dedup_hits_eq_nil_iff] at hreports
    rw [if_neg Bool.false_ne_true, or_iff_right Bool.false_ne_true]
    exact hreports

lemma run_of_gives (service : Service) (hgives : caster.library.generator.Gives source)
    (h : state.cache.Agrees source.ofKey) (scene : Scene) (own : Option EntityId)
    (request : Request) :
    let ran := service.run caster scene own request state
    ran.value = service.outcome caster source scene own request ∧
      ran.state.cache.Agrees source.ofKey := by
  obtain ⟨hagrees, hcollector⟩ := Caster.sweep_gathers hgives scene own request
    (service.startSweep state) h
  unfold run outcome
  cases service.isZeroLength request with
  | true => exact ⟨rfl, h⟩
  | false => exact ⟨congrArg (fun collector => collector.dedup.finish request.maxHits) hcollector,
      hagrees⟩

lemma castRequestWith_of_gives (service : Service)
    (hgives : caster.library.generator.Gives source) (h : state.cache.Agrees source.ofKey)
    (scene : Scene) (caller : Caller) (request : Request) :
    let answered := service.castRequestWith caster scene caller request state
    (∀ outcome, answered.value = .ok outcome →
      outcome = service.outcome caster source scene caller.group request) ∧
    answered.state.cache.Agrees source.ofKey := by
  have hpruned : (service.pruned state).cache.Agrees source.ofKey := h
  obtain ⟨hvalue, hagrees⟩ := service.run_of_gives hgives hpruned scene caller.group request
  rcases service.castRequestWith_cases caster scene caller request state with
    ⟨-, hrefused⟩ | ⟨-, hran⟩
  · rw [hrefused]
    exact ⟨by simp, h⟩
  · rw [hran]
    exact ⟨fun outcome houtcome => (Except.ok.inj houtcome).symm.trans hvalue, hagrees⟩

lemma castRequestWith_value_of_isOk (hgives : caster.library.generator.Gives source)
    (h : state.cache.Agrees source.ofKey)
    (hok : (service.castRequestWith caster scene caller request state).value.isOk = true) :
    (service.castRequestWith caster scene caller request state).value =
      .ok (service.outcome caster source scene caller.group request) := by
  cases hvalue : (service.castRequestWith caster scene caller request state).value with
  | error e =>
    rw [hvalue] at hok
    cases hok
  | ok outcome =>
    rw [(service.castRequestWith_of_gives hgives h scene caller request).1 outcome hvalue]

/-- Casts that gather the same come to the same. -/
lemma castRequestWith_value_congr {caster' : Caster}
    (hgives : caster.library.generator.Gives source)
    (hgives' : caster'.library.generator.Gives source) (h : state.cache.Agrees source.ofKey)
    (hsame : caster.gathered source scene caller.group request =
      caster'.gathered source scene caller.group request) :
    (service.castRequestWith caster scene caller request state).value =
      (service.castRequestWith caster' scene caller request state).value := by
  have hpruned : (service.pruned state).cache.Agrees source.ofKey := h
  have hrun : (service.run caster scene caller.group request (service.pruned state)).value =
      (service.run caster' scene caller.group request (service.pruned state)).value := by
    rw [(service.run_of_gives hgives hpruned scene caller.group request).1,
      (service.run_of_gives hgives' hpruned scene caller.group request).1, outcome, outcome, hsame]
  rw [castRequestWith_value, castRequestWith_value, hrun]

end Service

end Sightline
