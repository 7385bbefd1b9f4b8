import Sightline.Clock
import Sightline.Mesh.Basic
import Sightline.Shape.Family

/-!
# Mesh generators

A generator turns a shape into a mesh at a level of detail, or says why it cannot. Doing so may take
time, which the clock shows.
-/

namespace Sightline

/-- A service that triangulates shapes. -/
abbrev MeshGenerator := Shape → DetailLevel → Clock → Except MeshError (Mesh Float32) × Clock

namespace MeshGenerator

/-- The mesh of a shape as far as boxes go: the plain box has one, nothing else does. -/
def boxMesh (shape : Shape) : Except MeshError (Mesh Float32) :=
  if shape.isPlainBox then .ok Mesh.unitBox
  else
    match shape.sculpt with
    | some sculpt => .error (.missingAsset sculpt.asset)
    | none =>
      .error (.unsupported s!"{shape.profile.name} profile along {shape.path.name} path")

def boxes : MeshGenerator := fun shape _ clock => (boxMesh shape, clock)

/-- What a catalogue says about a shape. -/
structure Entry where
  shape : Shape
  /-- The level of detail the entry is about; none stands for all. -/
  detail : Option DetailLevel
  answer : Except MeshError (Mesh Float32)

def Entry.covers (e : Entry) (shape : Shape) (detail : DetailLevel) : Bool :=
  e.shape == shape && e.detail.all (· == detail)

/-- A generator that looks shapes up in a catalogue, the first entry about a shape deciding, and
takes the same time for each. What no entry is about is left to the boxes. -/
def catalogue (delay : Nanoseconds) (entries : List Entry) : MeshGenerator :=
  fun shape detail clock =>
    let answer := match entries.find? (·.covers shape detail) with
      | some entry => entry.answer
      | none => boxMesh shape
    (answer, clock.advance delay)

end MeshGenerator

end Sightline
