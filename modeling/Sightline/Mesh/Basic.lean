import Sightline.Geometry.Bounds
import Sightline.Geometry.Triangle
import Sightline.Identity

/-!
# Meshes

A mesh is a list of triangles in the frame of a shape of unit size. It is built from points and
triples of indices into them.
-/

namespace Sightline

inductive MeshError where
  | unsupported (what : String)
  | missingAsset (asset : AssetId)
  | invalidIndex (index : UInt32) (vertexCount : Nat)
  | generation (what : String)
deriving DecidableEq, Repr

def MeshError.message : MeshError → String
  | .unsupported what => s!"unsupported shape: {what}"
  | .missingAsset asset => s!"asset {asset.text} is missing"
  | .invalidIndex index count => s!"index {index.toNat} out of range for {count} vertices"
  | .generation what => s!"mesh generation failed: {what}"

structure Mesh (α : Type) where
  triangles : List (Triangle α)
deriving DecidableEq, Repr

namespace Mesh

variable {α : Type}

def size (m : Mesh α) : Nat := m.triangles.length

def vertex (vertices : Array (Vec3 α)) (index : UInt32) : Except MeshError (Vec3 α) :=
  match vertices[index.toNat]? with
  | some v => .ok v
  | none => .error (.invalidIndex index vertices.size)

/-- The triangles named by consecutive triples of indices; what is left after the last whole triple
is not looked at. -/
def trianglesOf (vertices : Array (Vec3 α)) : List UInt32 → Except MeshError (List (Triangle α))
  | i :: j :: k :: rest => do
    let a ← vertex vertices i
    let b ← vertex vertices j
    let c ← vertex vertices k
    let others ← trianglesOf vertices rest
    return ⟨a, b, c⟩ :: others
  | _ => .ok []

def ofIndexed (vertices : Array (Vec3 α)) (indices : List UInt32) : Except MeshError (Mesh α) :=
  (trianglesOf vertices indices).map Mesh.mk

/-- Corner numbers of the faces of a box, each face as two triangles seen counter-clockwise from
outside: the lower and upper face along the third axis, then along the second, then the first. -/
def boxIndices : List (Nat × Nat × Nat) :=
  [(0, 2, 1), (1, 2, 3), (4, 5, 6), (5, 7, 6),
   (0, 1, 4), (1, 5, 4), (2, 6, 3), (3, 6, 7),
   (0, 4, 2), (2, 4, 6), (1, 3, 5), (3, 7, 5)]

/-- The twelve triangles of the unit box, facing outward. -/
def unitBox [Scalar α] : Mesh α :=
  ⟨boxIndices.map fun (i, j, k) => ⟨unitCorner i, unitCorner j, unitCorner k⟩⟩

end Mesh

end Sightline
