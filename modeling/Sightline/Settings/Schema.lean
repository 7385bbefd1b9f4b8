import Sightline.Settings.Basic
import Sightline.Settings.Spelling

/-!
# The keys of settings

Settings are written in sections, and a few of them outside of all sections. Every setting may be
left out, and what is not known is passed over.
-/

namespace Sightline

/-- One setting among all others. -/
structure Setting where
  key : String
  ofToml? : TomlValue → Settings → Option Settings
  /-- The setting as a TOML value, if the format can hold it. -/
  toToml? : Settings → Option TomlValue
  ofRon : Settings → Reader Settings
  toRon : Settings → RonValue

/-- The setting that is looked up and replaced by the given functions. -/
def Setting.make {β : Type} (key : String) (spelling : Spelling β) (get : Settings → β)
    (set : Settings → β → Settings) : Setting where
  key := key
  ofToml? v s := (spelling.ofToml? v).map (set s)
  toToml? s := spelling.toToml? (get s)
  ofRon s := do return set s (← spelling.ofRon)
  toRon s := spelling.toRon (get s)

/-- Settings that are written together. -/
structure SettingsSection where
  key : String
  /-- The name RON may put in front of the section. -/
  typeName : String
  settings : List Setting

namespace Settings

def budgetSection : SettingsSection where
  key := "throttle"
  typeName := "ThrottleConfig"
  settings :=
    [.make "window_ms" .count (·.budget.windowMs)
      fun s v => { s with budget.windowMs := v },
     .make "region_budget_ms" .number (·.budget.regionMs)
      fun s v => { s with budget.regionMs := v },
     .make "avatar_budget_ms" .number (·.budget.userMs)
      fun s v => { s with budget.userMs := v },
     .make "min_available_ms" .number (·.budget.minimumMs)
      fun s v => { s with budget.minimumMs := v }]

def limitsSection : SettingsSection where
  key := "limits"
  typeName := "HitLimits"
  settings :=
    [.make "max_hits" .count (·.limits.maxHits)
      fun s v => { s with limits.maxHits := v },
     .make "max_hits_per_prim" .count (·.limits.perPart)
      fun s v => { s with limits.perPart := v },
     .make "max_hits_per_object" .count (·.limits.perGroup)
      fun s v => { s with limits.perGroup := v }]

def tolerancesSection : SettingsSection where
  key := "tolerances"
  typeName := "Tolerances"
  settings :=
    [.make "float_tolerance" .number (·.tolerances.floatTolerance)
      fun s v => { s with tolerances.floatTolerance := v },
     .make "dedup_tolerance" .number (·.tolerances.dedupTolerance)
      fun s v => { s with tolerances.dedupTolerance := v }]

def levelSpelling : Spelling DetailLevel := .choice DetailLevel.all DetailLevel.word

def detailSection : SettingsSection where
  key := "detail"
  typeName := "DetailLevels"
  settings :=
    [.make "prim" levelSpelling (·.detail.prim) fun s v => { s with detail.prim := v },
     .make "sculpt" levelSpelling (·.detail.sculpt) fun s v => { s with detail.sculpt := v },
     .make "mesh" levelSpelling (·.detail.mesh) fun s v => { s with detail.mesh := v },
     .make "avatar" levelSpelling (·.detail.avatar) fun s v => { s with detail.avatar := v }]

def cacheSection : SettingsSection where
  key := "cache"
  typeName := "MeshCacheConfig"
  settings :=
    [.make "capacity" .count (·.cache.capacity) fun s v => { s with cache.capacity := v }]

def cullingSection : SettingsSection where
  key := "culling"
  typeName := "CullingConfig"
  settings :=
    [.make "safety_coefficient" .triple (·.culling.safety)
      fun s v => { s with culling.safety := v }]

def sections : List SettingsSection :=
  [budgetSection, limitsSection, tolerancesSection, detailSection, cacheSection, cullingSection]

/-- The settings outside of all sections, in order. -/
def plainSettings : List Setting :=
  [.make "detect_exits" .flag (·.detectExits) fun s v => { s with detectExits := v },
   .make "dedup_scope" (.choice DedupScope.all DedupScope.word) (·.dedupScope)
    fun s v => { s with dedupScope := v },
   .make "avatar_shape" (.choice AvatarShape.all AvatarShape.word) (·.avatarShape)
    fun s v => { s with avatarShape := v }]

def typeName : String := "RaycastConfig"

end Settings

end Sightline
