import Mathlib.Tactic
import Sightline.Proofs.Service.Billing
import Sightline.Proofs.Service.Gathering
import Sightline.Proofs.Service.Rendering

/-!
# What does not depend on the past

A service remembers meshes and charges. If its generator answers as a source does, neither shows in
what it answers: a mesh is the one the source has, and a cast that is allowed comes to what it would
have come to at first.
-/

namespace Sightline

/-- A call on a service. -/
inductive ServiceCall where
  /-- Cast a ray. -/
  | castRay (query : RayQuery)
  /-- Cast a ray and reply with a flat list. -/
  | castRayValues (query : RayQuery)
  /-- Cast a ray that was read before. -/
  | castRequest (scene : Scene) (caller : Caller) (request : Request)
  /-- Ask for the mesh of a shape. -/
  | meshFor (shape : Shape) (cls : DetailClass)
  /-- Let the clock show another time. -/
  | setClock (clock : Clock)

namespace Service

/-- Ask for the mesh of a shape, as a cast does. -/
def meshFor (service : Service) (shape : Shape) (cls : DetailClass) (state : ServiceState) :
    Answered (Except MeshError (Mesh Float32)) :=
  let fetched := service.caster.library.meshFor shape cls state.cache state.clock
  { value := fetched.answer
    state := { state with
      cache := fetched.cache
      clock := fetched.generated.getD state.clock }
    events := fetched.evicted.toList.map fun _ => .meshEvicted }

/-- The state after a call. -/
def afterCall (service : Service) (state : ServiceState) : ServiceCall → ServiceState
  | .castRay query => (service.answer query state).state
  | .castRayValues query =>
    (service.castRayValues query.scene query.caller query.start query.stop query.options
      state).state
  | .castRequest scene caller request => (service.castRequest scene caller request state).state
  | .meshFor shape cls => (service.meshFor shape cls state).state
  | .setClock clock => { state with clock := clock }

/-- The state after calls, the first one first. -/
def after (service : Service) (state : ServiceState) (calls : List ServiceCall) : ServiceState :=
  calls.foldl service.afterCall state

/-- The service with room for another number of meshes and with another budget. -/
def withResources (service : Service) (cache : CacheSettings) (budget : BudgetSettings) :
    Service :=
  { service with settings := { service.settings with cache := cache, budget := budget } }

variable {service : Service} {source : MeshSource} {state : ServiceState}

/-! ### One call -/

lemma castRequest_of_gives (hgives : service.generator.Gives source)
    (h : state.cache.Agrees source.ofKey) (scene : Scene) (caller : Caller) (request : Request) :
    let answered := service.castRequest scene caller request state
    (∀ outcome, answered.value = .ok outcome →
      outcome = service.outcome service.caster source scene caller.group request) ∧
    answered.state.cache.Agrees source.ofKey :=
  service.castRequestWith_of_gives hgives h scene caller request

lemma castRay_of_gives (hgives : service.generator.Gives source)
    (h : state.cache.Agrees source.ofKey) (scene : Scene) (caller : Caller)
    (start stop : Vec3 Float32) (options : List OptionValue) :
    let answered := service.castRay scene caller start stop options state
    (∀ outcome, answered.value = .ok outcome →
      ∃ request, service.parseRequest start stop options = .ok request ∧
        outcome = service.outcome service.caster source scene caller.group request) ∧
    answered.state.cache.Agrees source.ofKey := by
  unfold castRay
  cases service.parseRequest start stop options with
  | error e => exact ⟨nofun, h⟩
  | ok request =>
    obtain ⟨hvalue, hagrees⟩ := castRequest_of_gives hgives h scene caller request
    exact ⟨fun outcome houtcome => ⟨request, rfl, hvalue outcome houtcome⟩, hagrees⟩

lemma meshFor_of_gives (hgives : service.generator.Gives source)
    (h : state.cache.Agrees source.ofKey) (shape : Shape) (cls : DetailClass) :
    (service.meshFor shape cls state).value =
        source shape (service.settings.detail.forClass cls) ∧
      (service.meshFor shape cls state).state.cache.Agrees source.ofKey :=
  MeshLibrary.meshFor_of_gives hgives h shape cls state.clock

lemma afterCall_agrees (hgives : service.generator.Gives source)
    (h : state.cache.Agrees source.ofKey) (call : ServiceCall) :
    (service.afterCall state call).cache.Agrees source.ofKey := by
  cases call with
  | castRay query => exact (castRay_of_gives hgives h _ _ _ _ _).2
  | castRayValues query =>
    rw [afterCall, (service.castRayValues_eq _ _ _ _ _ _).2]
    exact (castRay_of_gives hgives h _ _ _ _ _).2
  | castRequest scene caller request => exact (castRequest_of_gives hgives h _ _ _).2
  | meshFor shape cls => exact (meshFor_of_gives hgives h shape cls).2
  | setClock clock => exact h

/-! ### A history of calls -/

lemma after_agrees (hgives : service.generator.Gives source)
    (h : state.cache.Agrees source.ofKey) (calls : List ServiceCall) :
    (service.after state calls).cache.Agrees source.ofKey := by
  induction calls generalizing state with
  | nil => exact h
  | cons call rest ih => exact ih (afterCall_agrees hgives h call)

/-- All meshes held since a service was set up are those of the source. -/
lemma after_initial_agrees (hgives : service.generator.Gives source) (clock : Clock)
    (calls : List ServiceCall) :
    (service.after (service.initial clock) calls).cache.Agrees source.ofKey :=
  after_agrees hgives (Cache.agrees_empty _ _) calls

/-- Whatever was asked before, the mesh of a shape is the one that the source has, and two casts of
one request from one group that are both allowed come to the same. It makes no difference if one of
them is made of a service with another budget or with room for another number of meshes. -/
theorem answers_whatever_history (service : Service) (source : MeshSource)
    (hgives : service.generator.Gives source) (clock : Clock) (calls : List ServiceCall) :
    let state := service.after (service.initial clock) calls
    (∀ shape cls, (service.meshFor shape cls state).value =
      source shape (service.settings.detail.forClass cls)) ∧
    ∀ cache budget clock' calls',
      let other := service.withResources cache budget
      let state' := other.after (other.initial clock') calls'
      ∀ (caller caller' : Caller), caller.group = caller'.group →
        (∀ scene request outcome outcome',
          (service.castRequest scene caller request state).value = .ok outcome →
          (other.castRequest scene caller' request state').value = .ok outcome' →
          outcome = outcome') ∧
        ∀ scene start stop options outcome outcome',
          (service.castRay scene caller start stop options state).value = .ok outcome →
          (other.castRay scene caller' start stop options state').value = .ok outcome' →
          outcome = outcome' := by
  intro state
  have hagrees : state.cache.Agrees source.ofKey := after_initial_agrees hgives clock calls
  refine ⟨fun shape cls => (meshFor_of_gives hgives hagrees shape cls).1, ?_⟩
  intro cache budget clock' calls' other state' caller caller' hgroup
  have hgives' : other.generator.Gives source := hgives
  have hagrees' : state'.cache.Agrees source.ofKey := after_initial_agrees hgives' clock' calls'
  -- neither the room in the cache nor the budget is looked at when hits are sorted out
  have hsame (scene : Scene) (request : Request) :
      service.outcome service.caster source scene caller.group request =
        other.outcome other.caster source scene caller'.group request := by
    rw [hgroup]
    rfl
  constructor
  · intro scene request outcome outcome' h h'
    rw [(castRequest_of_gives hgives hagrees scene caller request).1 outcome h,
      (castRequest_of_gives hgives' hagrees' scene caller' request).1 outcome' h', hsame]
  · intro scene start stop options outcome outcome' h h'
    obtain ⟨request, hparse, houtcome⟩ :=
      (castRay_of_gives hgives hagrees scene caller start stop options).1 outcome h
    obtain ⟨request', hparse', houtcome'⟩ :=
      (castRay_of_gives hgives' hagrees' scene caller' start stop options).1 outcome' h'
    obtain rfl : request = request' := Except.ok.inj (hparse.symm.trans hparse')
    rw [houtcome, houtcome', hsame]

/-- It does not show that meshes were dropped and that one could not be made. -/
theorem answers_whatever_history_boxes :
    let service : Service := ⟨{ cache := ⟨1⟩ }, MeshGenerator.boxes⟩
    let calls : List ServiceCall :=
      [.meshFor .cube .prim, .meshFor .sphere .avatar, .meshFor .cube .mesh]
    let state := service.after (service.initial .zero) calls
    let other := service.withResources {} {}
    let scene : Scene := { groups := [Group.single ⟨1⟩ Placement.identity .cube] }
    let cast (s : Service) (region : RegionId) (state : ServiceState) :=
      (s.castRay scene ⟨region, ⟨7⟩, none⟩ ⟨-2, 0, 0⟩ ⟨2, 0, 0⟩ [] state).value
    state.cache.misses = 3 ∧ state.cache.evictions = 1 ∧
    (service.meshFor .cube .prim state).value = MeshGenerator.boxMesh .cube ∧
    (cast service ⟨1⟩ state).isOk = true ∧
    (cast other ⟨2⟩ (other.initial .zero)).isOk = true ∧
    ∀ outcome outcome', cast service ⟨1⟩ state = .ok outcome →
      cast other ⟨2⟩ (other.initial .zero) = .ok outcome' → outcome = outcome' := by
  intro service calls state other scene cast
  have hgives : service.generator.Gives fun shape _ => MeshGenerator.boxMesh shape :=
    fun _ _ _ => rfl
  have hanswers := service.answers_whatever_history _ hgives .zero calls
  refine ⟨by decide +kernel, by decide +kernel, hanswers.1 .cube .prim, by decide +kernel,
    by decide +kernel, ?_⟩
  exact (hanswers.2 {} {} .zero [] ⟨⟨1⟩, ⟨7⟩, none⟩ ⟨⟨2⟩, ⟨7⟩, none⟩ rfl).2 scene _ _ _

end Service

end Sightline
