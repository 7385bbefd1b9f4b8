import Sightline.Mesh.Cache
import Sightline.Mesh.Generator

/-!
# Mesh libraries

A library answers for the mesh of a shape: from its cache if it can, from its generator if it must.
Each class of shapes has a level of detail of its own.
-/

namespace Sightline

/-- What a mesh is kept under. Where the shape stands is no part of it. -/
structure MeshKey where
  shape : Shape
  detail : DetailLevel
deriving DecidableEq, Repr

abbrev MeshCache := Cache MeshKey (Mesh Float32)

structure MeshLibrary where
  generator : MeshGenerator
  detail : DetailLevels

/-- The mesh of a shape at the level of detail of its class. Generating it may move the clock. -/
def MeshLibrary.meshFor (lib : MeshLibrary) (shape : Shape) (cls : DetailClass)
    (cache : MeshCache) (clock : Clock) : Fetched MeshKey (Mesh Float32) MeshError Clock :=
  let detail := lib.detail.forClass cls
  cache.fetch ⟨shape, detail⟩ fun cache =>
    let (answer, clock) := lib.generator shape detail clock
    (answer, cache, clock)

end Sightline
