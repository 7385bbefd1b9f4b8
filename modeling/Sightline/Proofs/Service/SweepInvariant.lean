import Mathlib.Tactic
import Sightline.Service.Sweep

/-!
# Invariants of a sweep

A sweep takes small steps: it counts and reports what it does, fetches a mesh, and takes in hits on
what it meets. What each of these steps keeps, the whole sweep keeps, whichever way it goes through
the scene.
-/

namespace Sightline

/-- Who owns the surface that is hit. -/
def Hit.owner (hit : Hit) : Owner := ⟨hit.part, hit.group, hit.link⟩

@[simp] lemma Hit.owner_ofSurface (owner : Owner) (hit : SurfaceHit Float32) :
    (Hit.ofSurface owner hit).owner = owner := rfl

@[simp] lemma Hit.owner_ofContact (owner : Owner) (contact : Contact Float32) :
    (Hit.ofContact owner contact).owner = owner := rfl

/-- An avatar, a part or the ground of a scene is the owner. -/
def Scene.Holds (scene : Scene) (owner : Owner) : Prop :=
  (∃ avatar ∈ scene.avatars, owner = ⟨avatar.id, avatar.id, 0⟩) ∨
  (∃ group ∈ scene.groups, ∃ part ∈ group.parts, owner = ⟨part.id, group.id, part.link⟩) ∨
  (scene.ground.isSome ∧ owner = ⟨.terrain, .terrain, 0⟩)

/-- The sweep with a mesh fetched for a shape. -/
def Sweep.fetched (lib : MeshLibrary) (shape : Shape) (cls : DetailClass) (s : Sweep) : Sweep :=
  let fetched := lib.meshFor shape cls s.cache s.clock
  { s with cache := fetched.cache, clock := fetched.generated.getD s.clock }

/-- A property of sweeps that every small step keeps, as long as only owners in `P` are met. -/
structure Caster.Keeps (c : Caster) (P : Owner → Prop) (I : Sweep → Prop) : Prop where
  report : ∀ {s} events, I s → I (s.report events)
  count : ∀ {s} f, I s → I (s.count f)
  fetch : ∀ {s} shape cls, I s → I (s.fetched c.library shape cls)
  collect : ∀ {s hits}, (∀ hit ∈ hits, P hit.owner) → I s → I (s.collect hits)

namespace Caster

variable {c : Caster} {P : Owner → Prop} {I : Sweep → Prop} {segment : Segment Float32}

lemma owner_of_mem_meshHits {placement : Placement Float32} {owner : Owner} {mesh : Mesh Float32}
    {family : Family} {hit : Hit} (h : hit ∈ c.meshHits segment placement owner mesh family) :
    hit.owner = owner := by
  obtain ⟨tri, -, htri⟩ := List.mem_filterMap.mp h
  obtain ⟨surfaceHit, -, rfl⟩ := Option.map_eq_some_iff.mp htri
  exact Hit.owner_ofSurface owner surfaceHit

namespace Keeps

lemma meetShape (k : c.Keeps P I) {owner : Owner} (howner : P owner)
    (placement : Placement Float32) (shape : Shape) (family : Family) {s : Sweep} (h : I s) :
    I (c.meetShape segment placement shape family owner s) := by
  unfold Caster.meetShape
  split
  · exact k.report _ h
  · have hfetched := k.fetch shape family.detailClass h
    refine k.report _ (k.collect (fun hit hhit => ?_) (k.report _ (k.count _ hfetched)))
    rw [owner_of_mem_meshHits hhit]
    exact howner

lemma meetAvatar (k : c.Keeps P I) {avatar : Avatar Float32} (howner : P (.avatar avatar.id))
    {s : Sweep} (h : I s) : I (c.meetAvatar segment s avatar) := by
  unfold Caster.meetAvatar
  split
  · exact h
  · split
    · refine k.collect (fun hit hhit => ?_) (k.count _ h)
      obtain ⟨contact, -, rfl⟩ := Option.map_eq_some_iff.mp (Option.mem_toList.mp hhit)
      rw [Hit.owner_ofContact]
      exact howner
    · exact k.meetShape howner _ _ _ (k.count _ h)

lemma meetPart (k : c.Keeps P I) {group : EntityId} {part : Part Float32}
    (howner : P ⟨part.id, group, part.link⟩) {s : Sweep} (h : I s) :
    I (c.meetPart segment group s part) := by
  unfold Caster.meetPart
  split
  · exact h
  · exact k.meetShape howner _ _ _ h

lemma meetGroup (k : c.Keeps P I) {group : Group Float32}
    (howner : ∀ part ∈ group.parts, P ⟨part.id, group.id, part.link⟩) {s : Sweep} (h : I s) :
    I (c.meetGroup segment s group) := by
  unfold Caster.meetGroup
  split
  · exact k.count _ (k.count _ h)
  · exact List.foldlRecOn _ _ (k.count _ h) fun _ hs part hpart =>
      k.meetPart (howner part hpart) hs

lemma meetGround (k : c.Keeps P I) (howner : P .ground) (ground : Heightmap Float32)
    {s : Sweep} (h : I s) : I (c.meetGround segment s ground) := by
  refine k.collect (fun hit hhit => ?_) (k.report _ h)
  obtain ⟨contact, -, rfl⟩ := List.mem_map.mp hhit
  rw [Hit.owner_ofContact]
  exact howner

/-- What every small step keeps, a sweep through a scene keeps. -/
theorem sweep {scene : Scene} (k : c.Keeps scene.Holds I) (request : Request)
    (own : Option EntityId) {s : Sweep} (h : I s) : I (c.sweep scene request own s) := by
  have havatars : ∀ s, I s → I (scene.avatars.foldl (c.meetAvatar request.segment) s) :=
    fun s hs => List.foldlRecOn _ _ hs fun _ ht avatar havatar =>
      k.meetAvatar (Or.inl ⟨avatar, havatar, rfl⟩) ht
  have hgroups : ∀ s, I s → I ((scene.groups.filter (selects request own)).foldl
      (c.meetGroup request.segment) s) :=
    fun s hs => List.foldlRecOn _ _ hs fun _ ht group hgroup =>
      k.meetGroup (fun part hpart =>
        Or.inr (Or.inl ⟨group, List.mem_of_mem_filter hgroup, part, hpart, rfl⟩)) ht
  have hground : ∀ s, I s → I (scene.ground.toList.foldl (c.meetGround request.segment) s) :=
    fun s hs => List.foldlRecOn _ _ hs fun _ ht ground hground =>
      k.meetGround (Or.inr (Or.inr
        ⟨Option.isSome_of_mem (Option.mem_toList.mp hground), rfl⟩)) ground ht
  have hif : ∀ (wanted : Bool) (f : Sweep → Sweep), (∀ s, I s → I (f s)) →
      ∀ s, I s → I (if wanted then f s else s) := by
    intro wanted f hf s hs
    cases wanted
    · exact hs
    · exact hf s hs
  exact hif _ _ hground _ (hif _ _ hgroups _ (hif _ _ havatars _ h))

end Keeps

end Caster

end Sightline
