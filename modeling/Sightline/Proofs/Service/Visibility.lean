import Mathlib.Tactic
import Sightline.Proofs.Service.Casting

/-!
# What a request can see

What a request does not want is as good as absent: a cast through the whole scene cannot be told
from a cast through what the request can see of it, neither by its answer nor by what it leaves
behind. Whatever is hit is part of what the request can see.
-/

namespace Sightline

/-- The kind of a group is rejected. A phantom group counts as not physical. -/
def Rejects.Covers (reject : Rejects) (group : Group Float32) : Prop :=
  if group.physical ∧ ¬ group.phantom then reject.physical = true else reject.nonphysical = true

/-- A request can see a group that is not the caller's own. -/
structure Request.Sees (request : Request) (own : Option EntityId) (group : Group Float32) :
    Prop where
  /-- The query does not come from the group. -/
  foreign : own ≠ some group.id
  /-- Attachments are seen where they are asked for. -/
  attachment : group.attachment = true → request.detectAttachments = true
  /-- Phantom groups are seen where they are asked for. -/
  phantom : group.phantom = true → request.detectPhantom = true
  /-- The kind of the group is not rejected. -/
  kind : ¬ request.reject.Covers group

lemma Request.sees_iff {request : Request} {own : Option EntityId} {group : Group Float32} :
    request.Sees own group ↔ Caster.selects request own group = true := by
  have hforeign : own ≠ some group.id ↔ (!(own == some group.id)) = true := by simp
  have hattachment : (group.attachment = true → request.detectAttachments = true) ↔
      (!(group.attachment && !request.detectAttachments)) = true := by
    cases group.attachment <;> simp
  have hphantom : (group.phantom = true → request.detectPhantom = true) ↔
      (!(group.phantom && !request.detectPhantom)) = true := by
    cases group.phantom <;> simp
  have hkind : ¬ request.reject.Covers group ↔
      (!(if group.physical && !group.phantom then request.reject.physical
        else request.reject.nonphysical)) = true := by
    unfold Rejects.Covers
    cases group.physical <;> cases group.phantom <;> simp
  unfold Caster.selects
  rw [Bool.and_eq_true, Bool.and_eq_true, Bool.and_eq_true, ← hforeign, ← hattachment,
    ← hphantom, ← hkind]
  constructor
  · intro h
    exact ⟨⟨⟨h.foreign, h.attachment⟩, h.phantom⟩, h.kind⟩
  · rintro ⟨⟨⟨foreign, attachment⟩, phantom⟩, kind⟩
    exact ⟨foreign, attachment, phantom, kind⟩

instance (request : Request) (own : Option EntityId) (group : Group Float32) :
    Decidable (request.Sees own group) :=
  decidable_of_iff _ Request.sees_iff.symm

/-- What a request can see of a scene. -/
def Scene.visibleTo (scene : Scene) (request : Request) (own : Option EntityId) : Scene where
  groups := scene.groups.filter (request.Sees own ·)
  avatars := if request.reject.agents then [] else scene.avatars
  ground := if request.reject.land then none else scene.ground

variable {c : Caster} {scene : Scene} {request : Request} {own : Option EntityId}

/-! ### Nothing else makes a difference -/

@[simp] lemma Scene.visibleTo_groups :
    (scene.visibleTo request own).groups = scene.groups.filter (Caster.selects request own) := by
  refine List.filter_congr fun group _ => ?_
  rw [Bool.eq_iff_iff, decide_eq_true_iff, Request.sees_iff]

lemma Scene.visibleTo_avatars (hwants : request.wantsAgents = true) :
    (scene.visibleTo request own).avatars = scene.avatars :=
  if_neg (by simpa [Request.wantsAgents] using hwants)

lemma Scene.visibleTo_ground (hwants : request.wantsLand = true) :
    (scene.visibleTo request own).ground = scene.ground :=
  if_neg (by simpa [Request.wantsLand] using hwants)

/-- A sweep passes over what the request cannot see. -/
theorem Caster.sweep_visibleTo (c : Caster) (scene : Scene) (request : Request)
    (own : Option EntityId) (s : Sweep) :
    c.sweep (scene.visibleTo request own) request own s = c.sweep scene request own s := by
  have havatars : (if request.wantsAgents then
        (scene.visibleTo request own).avatars.foldl (c.meetAvatar request.segment) s else s) =
      if request.wantsAgents then scene.avatars.foldl (c.meetAvatar request.segment) s else s :=
    ite_congr rfl (fun hwants => by rw [Scene.visibleTo_avatars hwants]) fun _ => rfl
  simp only [sweep, havatars, Scene.visibleTo_groups, List.filter_filter, Bool.and_self]
  exact ite_congr rfl (fun hwants => by rw [Scene.visibleTo_ground hwants]) fun _ => rfl

lemma Service.run_visibleTo (service : Service) (c : Caster) (scene : Scene) (request : Request)
    (own : Option EntityId) (state : ServiceState) :
    service.run c (scene.visibleTo request own) own request state =
      service.run c scene own request state := by
  unfold run
  rw [c.sweep_visibleTo]

/-! ### Nothing else is hit -/

/-- Hits are owned by what is met. -/
lemma Caster.keeps_owner (c : Caster) (P : Owner → Prop) :
    c.Keeps P fun s => ∀ hit ∈ s.collector.hits, P hit.owner where
  report := fun _ h => h
  count := fun _ h => h
  fetch := fun _ _ h => h
  collect := by
    intro s hits hhits h hit hhit
    rcases List.mem_append.mp hhit with hold | hnew
    · exact h hit hold
    · exact hhits hit hnew

lemma Service.holds_owner_of_mem_run {service : Service} {state : ServiceState} {hit : Hit}
    (h : hit ∈ (service.run c scene own request state).value.toList) : scene.Holds hit.owner := by
  have hsweep := mem_sweep_of_mem_run h
  have hstart : ∀ hit ∈ (service.startSweep state).collector.hits, scene.Holds hit.owner :=
    fun _ hnone => absurd hnone List.not_mem_nil
  exact (c.keeps_owner scene.Holds).sweep request own hstart hit hsweep

/-- A cast comes to the same, in its answer, in the state it leaves behind and in what is reported,
if all that the request cannot see is taken out of the scene; and every hit is on something that the
request can see. -/
theorem Service.castRequest_visibleTo (service : Service) (scene : Scene) (caller : Caller)
    (request : Request) (state : ServiceState) :
    let visible := scene.visibleTo request caller.group
    let answered := service.castRequest scene caller request state
    answered = service.castRequest visible caller request state ∧
    ∀ outcome, answered.value = .ok outcome →
      ∀ hit ∈ outcome.toList, visible.Holds hit.owner := by
  intro visible answered
  have hsame : answered = service.castRequest visible caller request state := by
    simp only [answered, visible, castRequest, castRequestWith, run_visibleTo]
  refine ⟨hsame, fun outcome hvalue hit hhit => ?_⟩
  rw [hsame] at hvalue
  rcases service.castRequestWith_cases service.caster visible caller request state with
    ⟨-, hrefused⟩ | ⟨-, hran⟩
  · rw [castRequest, hrefused] at hvalue
    exact absurd hvalue (by simp)
  · rw [castRequest, hran, Except.ok.injEq] at hvalue
    rw [← hvalue] at hhit
    exact holds_owner_of_mem_run hhit

end Sightline
