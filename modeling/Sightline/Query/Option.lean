import Sightline.Geometry.Vector

/-!
# Option lists

Scripts pass options as a flat list in which keys and values take turns, and receive results as a
flat list too.
-/

namespace Sightline

/-- A value in a list that is passed to or from a script. -/
inductive OptionValue where
  | int (value : Int32)
  | float (value : Float32)
  | vector (value : Vec3 Float32)
  | text (value : String)

inductive OptionKey where
  | rejectTypes
  /-- The value is not zero if phantom objects are wanted. -/
  | detectPhantom
  | dataFlags
  | maxHits
  /-- The value is not zero if attachments are wanted. -/
  | detectAttachments
deriving DecidableEq, Repr

namespace OptionKey

def number : OptionKey → Int32
  | .rejectTypes => 0
  | .detectPhantom => 1
  | .dataFlags => 2
  | .maxHits => 3
  | .detectAttachments => 4

def ofNumber? (n : Int32) : Option OptionKey :=
  [rejectTypes, detectPhantom, dataFlags, maxHits, detectAttachments].find? (·.number == n)

end OptionKey

/-- Kinds of things that are not wanted. -/
structure Rejects where
  agents : Bool := false
  physical : Bool := false
  nonphysical : Bool := false
  land : Bool := false
deriving DecidableEq, Repr

namespace Rejects

/-- The kinds named by the four lowest bits of a number. -/
def ofBits (n : Nat) : Rejects := ⟨n.testBit 0, n.testBit 1, n.testBit 2, n.testBit 3⟩

def bits (r : Rejects) : Nat :=
  r.agents.toNat + 2 * r.physical.toNat + 4 * r.nonphysical.toNat + 8 * r.land.toNat

end Rejects

/-- What is wanted to know about each hit. -/
structure DataFlags where
  normal : Bool := false
  /-- The name of the group in place of the name of the part. -/
  rootKey : Bool := false
  linkNumber : Bool := false
deriving DecidableEq, Repr

namespace DataFlags

/-- The flags named by the three lowest bits of a number. -/
def ofBits (n : Nat) : DataFlags := ⟨n.testBit 0, n.testBit 1, n.testBit 2⟩

def bits (f : DataFlags) : Nat := f.normal.toNat + 2 * f.rootKey.toNat + 4 * f.linkNumber.toNat

end DataFlags

end Sightline
