import Sightline.Files.Path
import Sightline.Settings.Schema
import Sightline.Toml.Parser
import Sightline.Toml.Printer

/-!
# Settings as text

Settings are kept as text in one of two formats. What a text does not name has its default.
-/

namespace Sightline

inductive SettingsFormat where
  | toml
  | ron
deriving DecidableEq, Repr

namespace SettingsFormat

def ofPath? (path : String) : Option SettingsFormat := do
  match ← (FilePath.ofText path).extension? with
  | "toml" => some .toml
  | "ron" => some .ron
  | _ => none

end SettingsFormat

namespace Settings

/-! ### TOML -/

def ofEntries? (settings : List Setting) (entries : TomlTable) (s : Settings) : Option Settings :=
  settings.foldlM (fun s setting =>
    match entries.lookup setting.key with
    | some v => setting.ofToml? v s
    | none => some s) s

/-- Take the settings of a section. It is a table, or an array of its settings in order, of which
the last ones may be missing; a date or time names none of them. -/
def ofSection? (sec : SettingsSection) (v : TomlValue) (s : Settings) : Option Settings :=
  match v with
  | .table entries => ofEntries? sec.settings entries s
  | .array items =>
    (sec.settings.zip items).foldlM (fun s (setting, v) => setting.ofToml? v s) s
  | .datetime => some s
  | _ => none

def ofToml? (document : TomlTable) : Option Settings := do
  let s ← sections.foldlM (fun s sec =>
    match document.lookup sec.key with
    | some v => ofSection? sec v s
    | none => some s) ({} : Settings)
  ofEntries? plainSettings document s

def toEntries? (settings : List Setting) (s : Settings) : Option TomlTable :=
  settings.mapM fun setting => (setting.toToml? s).map (setting.key, ·)

/-- The settings as a TOML document, if the format can hold them. -/
def toToml? (s : Settings) : Option TomlTable := do
  let plain ← toEntries? plainSettings s
  let tables ← sections.mapM fun sec =>
    (toEntries? sec.settings s).map fun entries => (sec.key, TomlValue.table entries)
  return plain ++ tables

/-! ### RON -/

def ronField (setting : Setting) : Ron.Field Settings := ⟨setting.key, fun _ _ => setting.ofRon⟩

def ronSection (sec : SettingsSection) : Ron.Field Settings :=
  ⟨sec.key, Ron.record sec.typeName (sec.settings.map ronField)⟩

def ofRon (extensions : Ron.Extensions) : Reader Settings :=
  Ron.record typeName (sections.map ronSection ++ plainSettings.map ronField) extensions
    Ron.maxDepth {}

def ronFields (settings : List Setting) (s : Settings) : List (String × RonValue) :=
  settings.map fun setting => (setting.key, setting.toRon s)

def toRon (s : Settings) : RonValue :=
  .record ((sections.map fun sec => (sec.key, .record (ronFields sec.settings s)))
    ++ ronFields plainSettings s)

/-! ### Either format -/

/-- Read settings. They are not checked. -/
def parse? (format : SettingsFormat) (text : String) : Option Settings :=
  match format with
  | .toml => (Toml.parse? text).bind ofToml?
  | .ron => Ron.read? ofRon text

/-- Write settings, if the format can hold them. -/
def render? (format : SettingsFormat) (s : Settings) : Option String :=
  match format with
  | .toml => s.toToml?.map Toml.documentText
  | .ron => some (Ron.valueText 0 s.toRon)

end Settings

end Sightline
