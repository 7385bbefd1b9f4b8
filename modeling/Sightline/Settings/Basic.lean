import Sightline.Budget.Ledger
import Sightline.Query.Collector
import Sightline.Shape.Family

/-!
# Settings

Everything about a service that can be chosen. Every section has defaults, so settings only need to
name what they change.
-/

namespace Sightline

structure Tolerances where
  /-- What is smaller counts as degenerate or parallel. -/
  floatTolerance : Float32 := 1e-5
  /-- Hits of one part nearer to each other than this are merged, and a plane nearer to the local
  origin than this counts as passing through it. -/
  dedupTolerance : Float32 := 1e-3
deriving BEq, Repr

structure CacheSettings where
  capacity : UInt64 := 512
deriving BEq, DecidableEq, Repr

/-- How boxes are widened before they are held against a segment. -/
structure CullingSettings where
  safety : Vec3 Float32 := ⟨1.1, 1.1, 1.1⟩
deriving Repr

instance : BEq CullingSettings where
  beq a b := a.safety.x == b.safety.x && a.safety.y == b.safety.y && a.safety.z == b.safety.z

/-- What stands for an avatar. -/
inductive AvatarShape where
  | box
  | ellipsoid
deriving DecidableEq, Repr

namespace AvatarShape

def all : List AvatarShape := [.box, .ellipsoid]

def word : AvatarShape → String
  | .box => "box"
  | .ellipsoid => "ellipsoid"

end AvatarShape

structure Settings where
  budget : BudgetSettings := {}
  limits : HitLimits := {}
  tolerances : Tolerances := {}
  detail : DetailLevels := {}
  cache : CacheSettings := {}
  culling : CullingSettings := {}
  detectExits : Bool := false
  dedupScope : DedupScope := .perPart
  avatarShape : AvatarShape := .box
deriving BEq, Repr

inductive InvalidSetting where
  | windowNotPositive
  | regionBudgetNotPositive (value : Float32)
  | userBudgetNotPositive (value : Float32)
  | minimumNegative
  | limitZero
  | floatToleranceNotPositive (value : Float32)
  | dedupToleranceNotPositive (value : Float32)
  | capacityZero
  | safetyBelowOne

namespace InvalidSetting

def notPositive (name : String) (value : Float32) : String :=
  let text := shortestText .plain .single (BinaryNumber.ofSingle value)
  s!"{name} must be positive, got {text}"

def message : InvalidSetting → String
  | windowNotPositive => "throttle.window_ms must be positive"
  | regionBudgetNotPositive value => notPositive "throttle.region_budget_ms" value
  | userBudgetNotPositive value => notPositive "throttle.avatar_budget_ms" value
  | minimumNegative => "throttle.min_available_ms must not be negative"
  | limitZero => "hit limits must be at least 1"
  | floatToleranceNotPositive value => notPositive "tolerances.float_tolerance" value
  | dedupToleranceNotPositive value => notPositive "tolerances.dedup_tolerance" value
  | capacityZero => "cache.capacity must be at least 1"
  | safetyBelowOne => "culling.safety_coefficient entries must be >= 1.0"

end InvalidSetting

namespace Settings

def isPositive (x : Float32) : Bool := x.isFinite && decide (0 < x)

/-- Each setting is held against its rule; the first one that breaks it decides. -/
def validate (s : Settings) : Except InvalidSetting Unit := do
  unless 0 < s.budget.windowMs do throw .windowNotPositive
  unless isPositive s.budget.regionMs do throw (.regionBudgetNotPositive s.budget.regionMs)
  unless isPositive s.budget.userMs do throw (.userBudgetNotPositive s.budget.userMs)
  unless s.budget.minimumMs.isFinite && decide (0 ≤ s.budget.minimumMs) do throw .minimumNegative
  unless 0 < s.limits.maxHits && 0 < s.limits.perPart && 0 < s.limits.perGroup do throw .limitZero
  unless isPositive s.tolerances.floatTolerance do
    throw (.floatToleranceNotPositive s.tolerances.floatTolerance)
  unless isPositive s.tolerances.dedupTolerance do
    throw (.dedupToleranceNotPositive s.tolerances.dedupTolerance)
  unless 0 < s.cache.capacity do throw .capacityZero
  unless s.culling.safety.all fun c => c.isFinite && decide (1 ≤ c) do throw .safetyBelowOne

end Settings

end Sightline
