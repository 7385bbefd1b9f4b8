/-!
# Heightmaps

Elevations sampled at whole coordinates, row after row. The cell `(x, y)` reaches from `x` to
`x + 1` and from `y` to `y + 1`, and the four samples at its corners bound it: a grid of
`width × height` samples has `(width - 1) × (height - 1)` cells.
-/

namespace Sightline

structure Heightmap (α : Type) where
  /-- Samples along the first axis. -/
  width : Nat
  height : Nat
  /-- The samples, the first coordinate changing fastest. -/
  samples : Array α
  size_eq : samples.size = width * height

namespace Heightmap

variable {α : Type}

/-- A grid of given samples, if there is the right number of them. -/
def ofSamples? (width height : Nat) (samples : Array α) : Option (Heightmap α) :=
  if h : samples.size = width * height then some ⟨width, height, samples, h⟩ else none

def flat (width height : Nat) (elevation : α) : Heightmap α where
  width := width
  height := height
  samples := Array.replicate (width * height) elevation
  size_eq := Array.size_replicate

/-- The rows of a function of the coordinates, one after the other. -/
def rows (width height : Nat) (f : Nat → Nat → α) : List α :=
  (List.range height).flatMap fun y => (List.range width).map fun x => f x y

theorem length_rows (width height : Nat) (f : Nat → Nat → α) :
    (rows width height f).length = width * height := by
  induction height with
  | zero => simp [rows]
  | succ n ih =>
    rw [rows, List.range_succ, List.flatMap_append, List.length_append, ← rows, ih]
    simp [Nat.mul_succ]

def ofFn (width height : Nat) (f : Nat → Nat → α) : Heightmap α where
  width := width
  height := height
  samples := (rows width height f).toArray
  size_eq := by rw [List.size_toArray, length_rows]

def index (g : Heightmap α) (x y : Nat) : Nat := y * g.width + x

def sample? (g : Heightmap α) (x y : Nat) : Option α := g.samples[g.index x y]?

def elevation [Inhabited α] (g : Heightmap α) (x y : Nat) : α := (g.sample? x y).getD default

def cellsX (g : Heightmap α) : Nat := g.width - 1

def cellsY (g : Heightmap α) : Nat := g.height - 1

end Heightmap

end Sightline
