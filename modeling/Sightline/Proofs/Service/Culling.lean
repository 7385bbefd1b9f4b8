import Mathlib.Tactic
import Sightline.Proofs.Service.Gathering

/-!
# What culling leaves out

Culling is meant to leave out nothing that is hit. It never adds a hit, and a cast comes to the same
as without it as long as nothing that it rejects is hit. But it does reject something that is hit: a
segment that moves no further than the tolerance across a thin part is not held against the faces
through which it goes.
-/

namespace Sightline

namespace Caster

/-- The caster that looks into every box. -/
def ungated (c : Caster) : Caster := { c with gate := fun _ _ => true }

variable {c : Caster} {source : MeshSource} {segment : Segment Float32} {scene : Scene}
  {own : Option EntityId} {request : Request}

@[simp] lemma candidates_ungated :
    c.ungated.candidates source scene own request = c.candidates source scene own request := rfl

@[simp] lemma hitsOn_ungated : c.ungated.hitsOn segment = Candidate.hits := by
  funext candidate
  simp [hitsOn, admits, ungated]

/-- A candidate is rejected although it is hit. -/
def Misses (c : Caster) (segment : Segment Float32) (candidate : Candidate) : Prop :=
  c.admits segment candidate = false ∧ candidate.hits ≠ []

instance (c : Caster) (segment : Segment Float32) (candidate : Candidate) :
    Decidable (c.Misses segment candidate) :=
  decidable_of_iff (c.admits segment candidate = false ∧ ¬ candidate.hits.isEmpty)
    (by simp [Misses])

lemma hitsOn_sublist (c : Caster) (segment : Segment Float32) (candidate : Candidate) :
    (c.hitsOn segment candidate).Sublist candidate.hits := by
  unfold hitsOn
  split
  · exact List.Sublist.refl _
  · exact List.nil_sublist _

lemma hitsOn_eq_iff (candidate : Candidate) :
    c.hitsOn segment candidate = candidate.hits ↔ ¬ c.Misses segment candidate := by
  unfold hitsOn Misses
  cases c.admits segment candidate with
  | true => simp
  | false => simp [eq_comm]

lemma flatMap_hitsOn_sublist (c : Caster) (segment : Segment Float32)
    (candidates : List Candidate) :
    (candidates.flatMap (c.hitsOn segment)).Sublist (candidates.flatMap Candidate.hits) := by
  induction candidates with
  | nil => exact List.Sublist.refl _
  | cons candidate rest ih => exact (c.hitsOn_sublist segment candidate).append ih

/-- Every candidate that is missed makes the list of hits shorter. -/
lemma flatMap_hitsOn_eq_iff (candidates : List Candidate) :
    candidates.flatMap (c.hitsOn segment) = candidates.flatMap Candidate.hits ↔
      ∀ candidate ∈ candidates, ¬ c.Misses segment candidate := by
  induction candidates with
  | nil => simp
  | cons candidate rest ih =>
    rw [List.forall_mem_cons, ← ih, ← hitsOn_eq_iff, List.flatMap_cons, List.flatMap_cons]
    constructor
    · intro h
      -- neither half can be longer than it is without culling, so neither is shorter
      have hfirst := (c.hitsOn_sublist segment candidate).length_le
      have hrest := (c.flatMap_hitsOn_sublist segment rest).length_le
      have hlength := congrArg List.length h
      simp only [List.length_append] at hlength
      exact List.append_inj h (by omega)
    · rintro ⟨hfirst, hrest⟩
      rw [hfirst, hrest]

end Caster

namespace Service

variable {service : Service} {source : MeshSource} {state : ServiceState}

/-- A cast gathers no hit that it would not gather without culling. It gathers the same if and only
if no candidate is rejected although it is hit, and then it comes to the same. -/
theorem castRequest_culls (hgives : service.generator.Gives source)
    (h : state.cache.Agrees source.ofKey) (scene : Scene) (caller : Caller) (request : Request) :
    let c := service.caster
    let culled := c.gathered source scene caller.group request
    let all := c.ungated.gathered source scene caller.group request
    culled.Sublist all ∧
    (culled = all ↔ ∀ candidate ∈ c.candidates source scene caller.group request,
      ¬ c.Misses request.segment candidate) ∧
    (culled = all → (service.castRequest scene caller request state).value =
      (service.castRequestWith c.ungated scene caller request state).value) := by
  intro c culled all
  have hall : all = (c.candidates source scene caller.group request).flatMap Candidate.hits := by
    simp [all, Caster.gathered]
  refine ⟨?_, ?_, fun hsame => castRequestWith_value_congr hgives hgives h hsame⟩
  · rw [hall]
    exact c.flatMap_hitsOn_sublist _ _
  · rw [hall]
    exact Caster.flatMap_hitsOn_eq_iff _

/-- The cube far off is culled, and nobody misses it. -/
theorem castRequest_culls_cubes :
    let service : Service := ⟨{}, MeshGenerator.boxes⟩
    let source : MeshSource := fun shape _ => MeshGenerator.boxMesh shape
    let cube (id : EntityId) (y : Float32) : Group Float32 :=
      Group.single id ⟨⟨0, y, 0⟩, Rotation.identity, ⟨1, 1, 1⟩⟩ .cube
    let scene : Scene := { groups := [cube ⟨1⟩ 0, cube ⟨2⟩ 9] }
    let caller : Caller := ⟨⟨1⟩, ⟨1⟩, none⟩
    let request : Request := { segment := ⟨⟨-2, 0, 0⟩, ⟨2, 0, 0⟩⟩ }
    let state := service.initial .zero
    (service.caster.candidates source scene none request).map
      (service.caster.admits request.segment) = [true, false] ∧
    (service.castRequest scene caller request state).value =
      (service.castRequestWith service.caster.ungated scene caller request state).value := by
  intro service source cube scene caller request state
  have hgives : service.generator.Gives source := fun _ _ _ => rfl
  have hagrees : state.cache.Agrees source.ofKey := Cache.agrees_empty _ _
  have hculls := castRequest_culls hgives hagrees scene caller request
  exact ⟨by decide +kernel, hculls.2.2 (hculls.2.1.mpr (by decide +kernel))⟩

/-- A segment goes down through the upper face of a plate so thin that the way down counts as no
way at all. The plate is culled, although it is hit. -/
theorem culling_misses_thin_plate :
    let service : Service := ⟨{}, MeshGenerator.boxes⟩
    let plate : Group Float32 := Group.single ⟨1⟩ ⟨Vec3.zero, Rotation.identity, ⟨1, 1, 1e-6⟩⟩ .cube
    let scene : Scene := { groups := [plate] }
    let caller : Caller := ⟨⟨1⟩, ⟨1⟩, none⟩
    let request : Request := { segment := ⟨⟨-1, 0, 4.5e-6⟩, ⟨1, 0, -4.5e-6⟩⟩ }
    let state := service.initial .zero
    service.settings.validate.isOk = true ∧
    (∀ shape detail clock mesh, (service.generator shape detail clock).1 = .ok mesh →
      mesh = Mesh.unitBox) ∧
    service.parseRequest request.segment.start request.segment.stop [] = .ok request ∧
    (service.castRequest scene caller request state).value = .ok .noHit ∧
    ∃ hits, (service.castRequestWith service.caster.ungated scene caller request state).value =
      .ok (.hits hits) := by
  intro service plate scene caller request state
  let source : MeshSource := fun shape _ => MeshGenerator.boxMesh shape
  have hgives : service.generator.Gives source := fun _ _ _ => rfl
  have hagrees : state.cache.Agrees source.ofKey := Cache.agrees_empty _ _
  refine ⟨by decide +kernel, ?_, ?_, ?_, ?_⟩
  · intro shape detail clock mesh hmesh
    simp only [service, MeshGenerator.boxes, MeshGenerator.boxMesh] at hmesh
    split at hmesh
    · exact (Except.ok.inj hmesh).symm
    · split at hmesh <;> cases hmesh
  · have hfinite : request.segment.isFinite = true := by decide +kernel
    simp only [parseRequest, Request.parse, hfinite]
    rfl
  · have hok : (service.castRequest scene caller request state).value.isOk = true := by
      decide +kernel
    have hnone : service.caster.gathered source scene caller.group request = [] :=
      List.isEmpty_iff.mp (by decide +kernel)
    have hvalue := castRequestWith_value_of_isOk hgives hagrees hok
    rwa [outcome_eq_noHit_iff.mpr (Or.inr (Or.inl hnone))] at hvalue
  · let ungated := service.caster.ungated
    have hok : (service.castRequestWith ungated scene caller request state).value.isOk = true := by
      decide +kernel
    have hsome : service.outcome ungated source scene caller.group request ≠ .noHit := by
      rw [Ne, outcome_eq_noHit_iff, ← List.isEmpty_iff]
      decide +kernel
    have hvalue := castRequestWith_value_of_isOk hgives hagrees hok
    cases houtcome : service.outcome ungated source scene caller.group request with
    | noHit => exact absurd houtcome hsome
    | hits hits => exact ⟨hits, houtcome ▸ hvalue⟩

end Service

end Sightline
