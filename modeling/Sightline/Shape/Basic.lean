import Sightline.Identity
import Sightline.Single

/-!
# Shapes

A shape says what a surface looks like and nothing about where it stands, so all objects of one
shape share one mesh. Its fractions are kept as whole numbers of small units: equal shapes are then
equal values.
-/

namespace Sightline

inductive Profile where
  | circle
  | square
  | isoTriangle
  | equilateralTriangle
  | rightTriangle
  | halfCircle
deriving DecidableEq, Repr

def Profile.name : Profile → String
  | .circle => "Circle"
  | .square => "Square"
  | .isoTriangle => "IsoTriangle"
  | .equilateralTriangle => "EquilateralTriangle"
  | .rightTriangle => "RightTriangle"
  | .halfCircle => "HalfCircle"

/-- The path a profile is swept along. -/
inductive SweepPath where
  | line
  | circle
  | circle2
  | flexible
deriving DecidableEq, Repr

def SweepPath.name : SweepPath → String
  | .line => "Line"
  | .circle => "Circle"
  | .circle2 => "Circle2"
  | .flexible => "Flexible"

/-- How the asset of a sculpted shape is read. -/
inductive SculptKind where
  | sphere
  | torus
  | plane
  | cylinder
  | mesh
deriving DecidableEq, Repr

def SculptKind.name : SculptKind → String
  | .sphere => "Sphere"
  | .torus => "Torus"
  | .plane => "Plane"
  | .cylinder => "Cylinder"
  | .mesh => "Mesh"

/-- A surface taken from an asset. -/
structure Sculpt where
  asset : AssetId
  kind : SculptKind
deriving DecidableEq, Repr

/-- A surface without a place. -/
structure Shape where
  profile : Profile
  path : SweepPath
  /-- Hollow part, in units of `1 / Shape.unit`. -/
  hollow : Nat
  /-- Begin and end of the part of the profile that is kept, in units of `1 / Shape.unit`. -/
  profileCut : Nat × Nat
  pathCut : Nat × Nat
  /-- Twist at both ends, in hundredths of a turn. -/
  twist : Int × Int
  /-- Taper along the first two axes, in hundredths. -/
  taper : Int × Int
  /-- The asset whose surface replaces the parametric one. -/
  sculpt : Option Sculpt
deriving DecidableEq, Repr

namespace Shape

/-- The number of units in a whole. -/
def unit : Nat := 50000

/-- A fraction in units, after it is moved into `[0, 1]`. -/
def inUnits (x : Float32) : Nat :=
  Single.toNat (Single.round (Scalar.clamp x 0 1 * Single.ofNat unit))

/-- A signed fraction in hundredths, after it is moved into `[-1, 1]`. -/
def inHundredths (x : Float32) : Int := Single.toInt (Single.round (Scalar.clamp x (-1) 1 * 100))

/-- A parametric shape without cuts, twist or taper. -/
def primitive (profile : Profile) (path : SweepPath) : Shape where
  profile := profile
  path := path
  hollow := 0
  profileCut := (0, unit)
  pathCut := (0, unit)
  twist := (0, 0)
  taper := (0, 0)
  sculpt := none

def cube : Shape := primitive .square .line

def cylinder : Shape := primitive .circle .line

def sphere : Shape := primitive .halfCircle .circle

def sculpted (asset : AssetId) (kind : SculptKind) : Shape :=
  { cube with sculpt := some ⟨asset, kind⟩ }

def withHollow (s : Shape) (x : Float32) : Shape := { s with hollow := inUnits x }

def withProfileCut (s : Shape) (first last : Float32) : Shape :=
  { s with profileCut := (inUnits first, inUnits last) }

def withPathCut (s : Shape) (first last : Float32) : Shape :=
  { s with pathCut := (inUnits first, inUnits last) }

def withTwist (s : Shape) (first last : Float32) : Shape :=
  { s with twist := (inHundredths first, inHundredths last) }

def withTaper (s : Shape) (x y : Float32) : Shape :=
  { s with taper := (inHundredths x, inHundredths y) }

/-- A cut takes away part of the profile or of the path. -/
def isCut (s : Shape) : Bool := s.profileCut != (0, unit) || s.pathCut != (0, unit)

def isPlainBox (s : Shape) : Bool :=
  s.sculpt.isNone && s.profile == .square && s.path == .line && s.hollow == 0 && !s.isCut
    && s.twist == (0, 0) && s.taper == (0, 0)

end Shape

end Sightline
