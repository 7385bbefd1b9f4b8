import Sightline.Toml.Value

/-!
# Writing TOML

A document of two levels is written with its plain values first and one section for every table
after them. An array takes a line for each of its items.
-/

namespace Sightline

namespace Toml

mutual
/-- A value that is no table, as text. Strings are written as they are: their characters need no
escape. -/
def valueText : TomlValue → String
  | .string s => "\"" ++ s ++ "\""
  | .integer n => toString n
  | .float x => shortestText TomlValue.floatStyle BinaryFormat.double x
  | .boolean b => if b then "true" else "false"
  | .datetime => ""
  | .array items => "[\n" ++ itemsText items ++ "]"
  | .table _ => ""

def itemsText : List TomlValue → String
  | [] => ""
  | item :: rest => "    " ++ valueText item ++ ",\n" ++ itemsText rest
end

def keyLineText (key : String) (value : TomlValue) : String :=
  key ++ " = " ++ valueText value ++ "\n"

def linesText : TomlTable → String
  | [] => ""
  | (_, .table _) :: rest => linesText rest
  | (key, value) :: rest => keyLineText key value ++ linesText rest

/-- The tables of a table, each after an empty line. -/
def sectionsText : TomlTable → String
  | [] => ""
  | (key, .table entries) :: rest =>
    "\n[" ++ key ++ "]\n" ++ linesText entries ++ sectionsText rest
  | _ :: rest => sectionsText rest

def documentText (table : TomlTable) : String := linesText table ++ sectionsText table

end Toml

end Sightline
