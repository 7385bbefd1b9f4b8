import Sightline.Decimal.Text

/-!
# TOML values

A TOML document is a table. Its values are kept as what they stand for; dates and times are only
told apart from everything else.
-/

namespace Sightline

inductive TomlValue where
  | string (value : String)
  | integer (value : Int)
  | float (value : BinaryNumber)
  | boolean (value : Bool)
  | datetime
  | array (items : List TomlValue)
  | table (entries : List (String × TomlValue))

abbrev TomlTable := List (String × TomlValue)

namespace TomlValue

def maxInteger : Int := 0x7fffffffffffffff

def minInteger : Int := -0x8000000000000000

def floatStyle : NumberStyle := ⟨"nan", ".0"⟩

end TomlValue

end Sightline
