import Sightline.Geometry.Vector
import Sightline.Ron.Printer
import Sightline.Ron.Reader
import Sightline.Toml.Value

/-!
# Spellings

How the value of one setting is written in TOML and in RON, and what is read as one. A value is
read as it was written; besides, whole numbers are read as numbers in either format.
-/

namespace Sightline

/-- How the values of a type are spelled in each format. -/
structure Spelling (β : Type) where
  ofToml? : TomlValue → Option β
  /-- The TOML value, unless it lies outside of what the format can hold. -/
  toToml? : β → Option TomlValue
  ofRon : Reader β
  toRon : β → RonValue

namespace Spelling

/-- Counts that fit into 64 bits. The integers of TOML end one bit before that. -/
def count : Spelling UInt64 where
  ofToml?
    | .integer n => if 0 ≤ n then some (UInt64.ofNat n.toNat) else none
    | _ => none
  toToml? n := if (n.toNat : Int) ≤ TomlValue.maxInteger then some (.integer n.toNat) else none
  ofRon := do
    let n ← Ron.natural
    if n < UInt64.size then return UInt64.ofNat n else failure
  toRon n := .word (toString n.toNat)

/-- A TOML value as a number. An integer is rounded once; a float was rounded to double precision
when it was read. -/
def singleOfToml? : TomlValue → Option Float32
  | .integer n => some (BinaryNumber.finite (n < 0) n.natAbs 0).toSingle
  | .float x => some x.toSingle
  | _ => none

/-- A number as a TOML value, exactly. -/
def singleToToml (x : Float32) : TomlValue :=
  .float ((BinaryNumber.ofSingle x).roundTo BinaryFormat.double)

def ronNumber : NumberStyle := ⟨"NaN", ".0"⟩

def singleToRon (x : Float32) : String :=
  shortestText ronNumber BinaryFormat.single (BinaryNumber.ofSingle x)

def number : Spelling Float32 where
  ofToml? := singleOfToml?
  toToml? x := some (singleToToml x)
  ofRon := Ron.float
  toRon x := .word (singleToRon x)

def flag : Spelling Bool where
  ofToml?
    | .boolean b => some b
    | _ => none
  toToml? b := some (.boolean b)
  ofRon := Ron.boolean
  toRon b := .word (if b then "true" else "false")

/-- Three numbers. In TOML more of them may follow, which are not looked at. -/
def triple : Spelling (Vec3 Float32) where
  ofToml?
    | .array (x :: y :: z :: _) => do
      let x ← singleOfToml? x
      let y ← singleOfToml? y
      let z ← singleOfToml? z
      return ⟨x, y, z⟩
    | _ => none
  toToml? v := some (.array [singleToToml v.x, singleToToml v.y, singleToToml v.z])
  ofRon := do
    let (x, y, z) ← Ron.triple
    return ⟨x, y, z⟩
  toRon v := .tuple [singleToRon v.x, singleToRon v.y, singleToRon v.z]

/-- The word of a TOML value: a string, or the only key of a table that holds nothing under it. -/
def wordOfToml? : TomlValue → Option String
  | .string word => some word
  | .table [(word, .table [])] => some word
  | .table [(word, .array [])] => some word
  | _ => none

/-- Values that have a word each. -/
def choice {β : Type} (all : List β) (word : β → String) : Spelling β where
  ofToml? v := do
    let w ← wordOfToml? v
    all.find? (word · == w)
  toToml? b := some (.string (word b))
  ofRon := Ron.oneWord (all.map fun b => (word b, b))
  toRon b := .word (word b)

end Spelling

end Sightline
