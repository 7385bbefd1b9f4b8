import Sightline.Intersection.Contact
import Sightline.Intersection.Surface
import Sightline.Scene.Heightmap
import Sightline.Single
import Sightline.Terrain.Footprint

/-!
# Surveys of the ground

The ground is never triangulated as a whole: only the two triangles of every cell under the ray are
built and tested, and not even those when the ray stays above or below all of them. The ground is
solid, so it is met from above only. Reading an elevation is a partial operation too, and like that
of the walk a parameter.
-/

namespace Sightline

/-- What lies under a ray. -/
structure GroundStrip where
  cells : List Cell
  /-- Two triangles for every cell, facing up. -/
  triangles : List (Triangle Float32)
  lowest : Float32
  highest : Float32

namespace GroundStrip

variable {m : Type → Type} [Monad m]

/-- The grid points around a cell: the lowest one, its neighbours along the first and the second
axis, and the one across. -/
def gridPoints (cell : Cell) : List (Nat × Nat) :=
  let (x, y) := cell
  [(x, y), (x + 1, y), (x, y + 1), (x + 1, y + 1)]

/-- The corners of a cell, which are the points of the ground above the grid points around it. -/
def cellCornersM (elevation : Nat → Nat → m Float32) (cell : Cell) : m (List (Vec3 Float32)) :=
  (gridPoints cell).mapM fun (x, y) =>
    return ⟨Single.ofNat x, Single.ofNat y, ← elevation x y⟩

def cellCorners (ground : Heightmap Float32) (cell : Cell) : List (Vec3 Float32) :=
  (cellCornersM (m := Id) ground.elevation cell).run

/-- The two triangles between the four corners of a cell. -/
def split : List (Vec3 Float32) → List (Triangle Float32)
  | [c00, c10, c01, c11] => [⟨c00, c10, c01⟩, ⟨c10, c11, c01⟩]
  | _ => []

def cellTriangles (ground : Heightmap Float32) (cell : Cell) : List (Triangle Float32) :=
  split (cellCorners ground cell)

def ofCorners (cells : List Cell) (corners : List (List (Vec3 Float32))) : GroundStrip :=
  let heights := corners.flatten.map Vec3.z
  { cells := cells
    triangles := corners.flatMap split
    lowest := heights.foldl Scalar.min Single.infinity
    highest := heights.foldl Scalar.max (-Single.infinity) }

/-- The strip of ground under a ray, on a grid with `cellsX × cellsY` cells. -/
def underM (clamp : Float32 → Float32 → Float32 → m Float32) (elevation : Nat → Nat → m Float32)
    (cellsX cellsY : Nat) (segment : Segment Float32) : m GroundStrip := do
  let cells ← Footprint.cellsM clamp cellsX cellsY segment
  let corners ← cells.mapM (cellCornersM elevation)
  return ofCorners cells corners

def under (ground : Heightmap Float32) (segment : Segment Float32) : GroundStrip :=
  (underM (m := Id) Scalar.clamp ground.elevation ground.cellsX ground.cellsY segment).run

/-- The segment stays above or below everything in the strip. -/
def isOutOfReach (strip : GroundStrip) (segment : Segment Float32) : Bool :=
  let low := Scalar.min segment.start.z segment.stop.z
  let high := Scalar.max segment.start.z segment.stop.z
  decide (strip.highest < low) || decide (high < strip.lowest)

def contacts (strip : GroundStrip) (test : SurfaceTest Float32) (segment : Segment Float32) :
    List (Contact Float32) :=
  let frame := RayFrame.world segment Family.terrain.traits
  strip.triangles.filterMap fun tri => (test.intersect? frame tri).map fun hit =>
    { subject := .terrain, depth := hit.distance, normal := hit.normal, position := hit.position }

end GroundStrip

structure Survey where
  strip : GroundStrip
  /-- The triangles were not looked at. -/
  skipped : Bool
  contacts : List (Contact Float32)

namespace Survey

/-- How the ground is met: leaving it is never reported. -/
def surfaceTest (tolerance planeTolerance : Float32) : SurfaceTest Float32 :=
  ⟨tolerance, planeTolerance, false⟩

def run (test : SurfaceTest Float32) (ground : Heightmap Float32) (segment : Segment Float32) :
    Survey :=
  let strip := GroundStrip.under ground segment
  let skipped := strip.cells.isEmpty || strip.isOutOfReach segment
  { strip := strip
    skipped := skipped
    contacts := if skipped then [] else strip.contacts test segment }

end Survey

end Sightline
