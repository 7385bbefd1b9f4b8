import Sightline.Files.Tree
import Sightline.Settings.Format

/-!
# Settings in files

Settings are kept in files. What is written is made ready before the file is touched, so settings
that cannot be written leave the file as it was.
-/

namespace Sightline

inductive SettingsError where
  | file (fault : FileFault)
  | parse
  | serialize
  | unsupportedFormat (path : String)
  | invalid (error : InvalidSetting)

def SettingsError.message : SettingsError → String
  | file _ => "IO error"
  | parse => "Parse error"
  | serialize => "Serialization error"
  | unsupportedFormat path => s!"Unsupported format: {path}"
  | invalid error => s!"Invalid configuration: {error.message}"

/-- Work on files. They are left in some state also where the work fails. -/
abbrev OnFiles := ExceptT SettingsError (StateM FileTree)

namespace Settings

def formatOf (path : String) : Except SettingsError SettingsFormat :=
  match SettingsFormat.ofPath? path with
  | some format => .ok format
  | none => .error (.unsupportedFormat path)

/-- Read the settings in a file. They are not checked. -/
def load (t : FileTree) (path : String) : Except SettingsError Settings := do
  let format ← formatOf path
  let text ← (t.readText (.ofText path)).mapError .file
  match parse? format text with
  | some s => return s
  | none => throw .parse

def writeText (path text : String) : OnFiles Unit := do
  match (← get).write (.ofText path) text.toUTF8 with
  | .ok t => set t
  | .error fault => throw (.file fault)

def save (s : Settings) (path : String) : OnFiles Unit := do
  let format ← formatOf path
  match s.render? format with
  | some text => writeText path text
  | none => throw .serialize

end Settings

end Sightline
