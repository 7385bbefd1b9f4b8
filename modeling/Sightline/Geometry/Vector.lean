import Sightline.Scalar

/-!
# Vectors

Points and directions in space, by components. Sums are taken from the left, so that in single
precision a formula has one value.
-/

namespace Sightline

inductive Axis where
  | x
  | y
  | z
deriving DecidableEq, Repr

def Axis.all : List Axis := [.x, .y, .z]

/-- The axis after this one, in a cycle. -/
def Axis.next : Axis → Axis
  | .x => .y
  | .y => .z
  | .z => .x

@[ext] structure Vec3 (α : Type) where
  x : α
  y : α
  z : α
deriving DecidableEq, Repr

namespace Vec3

variable {α : Type}

def coord (v : Vec3 α) : Axis → α
  | .x => v.x
  | .y => v.y
  | .z => v.z

def diagonal (s : α) : Vec3 α := ⟨s, s, s⟩

def map (f : α → α) (v : Vec3 α) : Vec3 α := ⟨f v.x, f v.y, f v.z⟩

def zipWith (f : α → α → α) (v w : Vec3 α) : Vec3 α := ⟨f v.x w.x, f v.y w.y, f v.z w.z⟩

def all (p : α → Bool) (v : Vec3 α) : Bool := p v.x && p v.y && p v.z

variable [Scalar α]

instance : Add (Vec3 α) := ⟨zipWith (· + ·)⟩

instance : Sub (Vec3 α) := ⟨zipWith (· - ·)⟩

instance : Neg (Vec3 α) := ⟨map (- ·)⟩

instance : HMul (Vec3 α) α (Vec3 α) := ⟨fun v s => v.map (· * s)⟩

instance : HDiv (Vec3 α) α (Vec3 α) := ⟨fun v s => v.map (· / s)⟩

def zero : Vec3 α := diagonal 0

/-- The vector of length `|s|` along an axis. -/
def along (s : α) : Axis → Vec3 α
  | .x => ⟨s, 0, 0⟩
  | .y => ⟨0, s, 0⟩
  | .z => ⟨0, 0, s⟩

def mul (v w : Vec3 α) : Vec3 α := zipWith (· * ·) v w

def div (v w : Vec3 α) : Vec3 α := zipWith (· / ·) v w

def min (v w : Vec3 α) : Vec3 α := zipWith Scalar.min v w

def max (v w : Vec3 α) : Vec3 α := zipWith Scalar.max v w

def abs (v : Vec3 α) : Vec3 α := v.map Scalar.abs

def dot (v w : Vec3 α) : α := v.x * w.x + v.y * w.y + v.z * w.z

def cross (v w : Vec3 α) : Vec3 α :=
  ⟨v.y * w.z - v.z * w.y, v.z * w.x - v.x * w.z, v.x * w.y - v.y * w.x⟩

def norm (v : Vec3 α) : α := Scalar.sqrt (v.dot v)

def isFinite (v : Vec3 α) : Bool := v.all Scalar.isFinite

end Vec3

end Sightline
