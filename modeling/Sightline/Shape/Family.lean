import Sightline.Shape.Basic

/-!
# Shape families

Shapes fall into families that are intersected by different rules and triangulated at different
levels of detail.
-/

namespace Sightline

structure Traits where
  /-- Faces in a plane through the local origin are real surfaces. -/
  endCaps : Bool
  /-- The surface encloses a volume, so leaving it is a hit of its own. -/
  exitHits : Bool
deriving DecidableEq, Repr

namespace Traits

/-- The traits as a bit set: end caps count one, exit hits count two. -/
def bits (t : Traits) : Nat := t.endCaps.toNat + 2 * t.exitHits.toNat

def ofBits (n : Nat) : Traits := ⟨n.testBit 0, n.testBit 1⟩

end Traits

/-- Kinds of shape that share a level of detail. -/
inductive DetailClass where
  | prim
  | sculpt
  | mesh
  | avatar
deriving DecidableEq, Repr

def DetailClass.name : DetailClass → String
  | .prim => "Prim"
  | .sculpt => "Sculpt"
  | .mesh => "Mesh"
  | .avatar => "Avatar"

inductive DetailLevel where
  | lowest
  | low
  | medium
  | high
  | highest
deriving DecidableEq, Repr

namespace DetailLevel

def all : List DetailLevel := [.lowest, .low, .medium, .high, .highest]

def name : DetailLevel → String
  | .lowest => "Lowest"
  | .low => "Low"
  | .medium => "Medium"
  | .high => "High"
  | .highest => "Highest"

def word : DetailLevel → String
  | .lowest => "lowest"
  | .low => "low"
  | .medium => "medium"
  | .high => "high"
  | .highest => "highest"

end DetailLevel

structure DetailLevels where
  prim : DetailLevel := .medium
  sculpt : DetailLevel := .medium
  mesh : DetailLevel := .highest
  avatar : DetailLevel := .medium
deriving DecidableEq, Repr

def DetailLevels.forClass (d : DetailLevels) : DetailClass → DetailLevel
  | .prim => d.prim
  | .sculpt => d.sculpt
  | .mesh => d.mesh
  | .avatar => d.avatar

/-- A family of shapes with intersection rules of its own. -/
inductive Family where
  /-- Parametric shapes without cuts. -/
  | closedPrim
  /-- Parametric shapes with cut faces through their axis. -/
  | cutPrim
  | sculpt
  | mesh
  | terrain
  | avatar
  /-- Boxes that stand in for shapes without a mesh. -/
  | boundingBox
deriving DecidableEq, Repr

namespace Family

def all : List Family :=
  [.closedPrim, .cutPrim, .sculpt, .mesh, .terrain, .avatar, .boundingBox]

def name : Family → String
  | .closedPrim => "ClosedPrim"
  | .cutPrim => "CutPrim"
  | .sculpt => "Sculpt"
  | .mesh => "Mesh"
  | .terrain => "Terrain"
  | .avatar => "Avatar"
  | .boundingBox => "BoundingBox"

/-- What intersection has to know. A parametric shape without cuts has no face through the origin
of its own, so one found there is an artefact; the ground has no inside. -/
def traits : Family → Traits
  | .closedPrim => ⟨false, true⟩
  | .cutPrim | .sculpt | .mesh | .avatar | .boundingBox => ⟨true, true⟩
  | .terrain => ⟨true, false⟩

def detailClass : Family → DetailClass
  | .closedPrim | .cutPrim | .terrain | .boundingBox => .prim
  | .sculpt => .sculpt
  | .mesh => .mesh
  | .avatar => .avatar

end Family

def Shape.family (s : Shape) : Family :=
  match s.sculpt with
  | some ⟨_, .mesh⟩ => .mesh
  | some _ => .sculpt
  | none => if s.isCut then .cutPrim else .closedPrim

end Sightline
