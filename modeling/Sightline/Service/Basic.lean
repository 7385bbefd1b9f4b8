import Sightline.Query.Reply
import Sightline.Service.Sweep

/-!
# The service

A service answers one query after the other. A query is read, then the budget is asked, then the
scene is swept and the hits are sorted out, and in the end the time it took is charged. Only the
clock, the ledger and the mesh cache change from one query to the next.
-/

namespace Sightline

structure Caller where
  region : RegionId
  user : UserId
  /-- The group the query comes from, which is never hit. -/
  group : Option EntityId := none

inductive CastError where
  | malformed (error : RequestError)
  | insufficientTime (availableMs : Float32)

namespace CastError

def message : CastError → String
  | malformed error => s!"malformed parameters: {error.message}"
  | insufficientTime availableMs => s!"insufficient time: {millisText availableMs} ms available"

def status : CastError → Status
  | malformed _ => .malformed
  | insufficientTime _ => .insufficientTime

end CastError

/-- A service with checked settings. -/
structure Service where
  settings : Settings
  generator : MeshGenerator

structure ServiceState where
  clock : Clock
  ledger : Ledger
  cache : MeshCache

/-- What a query came to, and what it left behind. -/
structure Answered (β : Type) where
  value : β
  state : ServiceState
  events : List Event

def Answered.map {β γ : Type} (f : β → γ) (a : Answered β) : Answered γ :=
  { value := f a.value, state := a.state, events := a.events }

namespace Service

def create (settings : Settings) (generator : MeshGenerator) : Except InvalidSetting Service := do
  settings.validate
  return ⟨settings, generator⟩

def creationEvents (service : Service) : List Event :=
  let s := service.settings
  [.libraryCreated s.cache.capacity.toNat s.detail,
   .serviceReady s.limits.maxHits.toNat s.dedupScope s.avatarShape]

def initial (service : Service) (clock : Clock) : ServiceState where
  clock := clock
  ledger := .empty
  cache := .empty service.settings.cache.capacity.toNat

def culler (service : Service) : Culler Float32 where
  tolerance := service.settings.tolerances.floatTolerance
  safety := service.settings.culling.safety

def caster (service : Service) : Caster where
  library := ⟨service.generator, service.settings.detail⟩
  surface :=
    { tolerance := service.settings.tolerances.floatTolerance
      planeTolerance := service.settings.tolerances.dedupTolerance
      detectExits := service.settings.detectExits }
  culler := service.culler
  gate := service.culler.mayTouch
  avatarShape := service.settings.avatarShape

def collector (service : Service) : Collector where
  tolerance := service.settings.tolerances.dedupTolerance
  scope := service.settings.dedupScope
  limits := service.settings.limits

def isZeroLength (service : Service) (request : Request) : Bool :=
  request.segment.isDegenerate service.settings.tolerances.floatTolerance

/-- Sweep the scene and sort out the hits; the budget has no part in this. -/
def run (service : Service) (caster : Caster) (scene : Scene) (own : Option EntityId)
    (request : Request) (state : ServiceState) : Answered Outcome :=
  if service.isZeroLength request then ⟨.noHit, state, [.zeroLength]⟩
  else
    let sweep := caster.sweep scene request own
      { cache := state.cache, clock := state.clock, collector := service.collector }
    -- near-duplicates are dropped here to be counted; `finish` finds none of them left
    let distinct := sweep.collector.dedup
    let outcome := distinct.finish request.maxHits
    let done := Event.castDone sweep.tally sweep.collector.size distinct.duplicates
      outcome.toList.length
    { value := outcome
      state := { state with cache := sweep.cache, clock := sweep.clock }
      events := sweep.events ++ [done] }

/-- Answer a request, if the budget allows it, with a caster of choice. -/
def castRequestWith (service : Service) (caster : Caster) (scene : Scene) (caller : Caller)
    (request : Request) (state : ServiceState) : Answered (Except CastError Outcome) :=
  let budget := service.settings.budget
  match state.ledger.request budget state.clock.now caller.region caller.user with
  | (.error denial, ledger) =>
    { value := .error (.insufficientTime denial.availableMs)
      state := { state with ledger := ledger }
      events := [.callRefused caller.user caller.region denial.availableMs] }
  | (.ok grant, ledger) =>
    let ran := service.run caster scene caller.group request { state with ledger := ledger }
    let now := ran.state.clock.now
    let ledger := ran.state.ledger.charge budget now grant (now - grant.started)
    { value := .ok ran.value, state := { ran.state with ledger := ledger }, events := ran.events }

/-- Answer a request, if the budget allows it. -/
def castRequest (service : Service) (scene : Scene) (caller : Caller) (request : Request)
    (state : ServiceState) : Answered (Except CastError Outcome) :=
  service.castRequestWith service.caster scene caller request state

/-- Read a request; no more hits can be asked for than the settings allow. -/
def parseRequest (service : Service) (start stop : Vec3 Float32) (options : List OptionValue) :
    Except RequestError Request :=
  Request.parse start stop options service.settings.limits.maxHits.toNat

def castRay (service : Service) (scene : Scene) (caller : Caller) (start stop : Vec3 Float32)
    (options : List OptionValue) (state : ServiceState) : Answered (Except CastError Outcome) :=
  match service.parseRequest start stop options with
  | .error e => ⟨.error (.malformed e), state, []⟩
  | .ok request => service.castRequest scene caller request state

/-- Answer a query with a flat list. -/
def castRayValues (service : Service) (scene : Scene) (caller : Caller)
    (start stop : Vec3 Float32) (options : List OptionValue) (state : ServiceState) :
    Answered (List OptionValue) :=
  match service.parseRequest start stop options with
  | .error e => ⟨[.int Status.malformed.code], state, [.requestRejected e]⟩
  | .ok request =>
    (service.castRequest scene caller request state).map fun
      | .ok outcome => Reply.format request.flags outcome.toList outcome.status
      | .error e => Reply.format request.flags [] e.status

end Service

end Sightline
