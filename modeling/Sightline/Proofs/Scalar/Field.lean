import Mathlib.Algebra.Order.Floor.Ring
import Mathlib.Data.Rat.Floor
import Mathlib.Data.Rat.Sqrt
import Mathlib.Tactic
import Sightline.Scalar

/-!
# Ordered fields as scalars

Geometry over a number type that does not round: an ordered field whose numbers have whole parts.
Every number is defined and finite here, so that the comparisons of floating point are the order of
the field and the choices they make are minimum, maximum and nearest value.
-/

namespace Sightline

/-- A number type with a function that is taken for its square root. -/
class SquareRoot (K : Type) where
  /-- The square root, as far as there is one. -/
  sqrt : K → K

instance : SquareRoot ℚ := ⟨Rat.sqrt⟩

namespace Scalar

variable {K : Type} [Field K] [LinearOrder K] [FloorRing K] [SquareRoot K]

/-- An ordered field is a scalar type. This is an instance only where geometry is read over a field,
and there the operations of the field come first. -/
@[reducible] def ofField : Scalar K where
  toBEq := instBEqOfDecidableEq
  decLt := inferInstance
  decLe := inferInstance
  ofNat n := n
  abs x := |x|
  sqrt := SquareRoot.sqrt
  floor x := (⌊x⌋ : ℤ)
  ceil x := (⌈x⌉ : ℤ)
  toNat x := ⌊x⌋.toNat
  isFinite _ := true

attribute [local instance] ofField
attribute [-instance] toAdd toSub toMul toDiv toNeg toLT toLE toBEq

/-! ### Numerals -/

lemma zero_field : (instOfNat 0 : OfNat K 0).ofNat = (0 : K) := Nat.cast_zero

lemma one_field : (instOfNat 1 : OfNat K 1).ofNat = (1 : K) := Nat.cast_one

lemma two_field : (instOfNat 2 : OfNat K 2).ofNat = (2 : K) := Nat.cast_ofNat

lemma half_field : (half : K) = 1 / 2 := by rw [half, one_field, two_field]

/-! ### Choices -/

lemma abs_field (a : K) : Scalar.abs a = |a| := rfl

lemma isDefined_field (a : K) : isDefined a = true := beq_self_eq_true a

lemma min_field (a b : K) : Scalar.min a b = Min.min a b := by
  rw [Scalar.min, isDefined_field, if_pos rfl]
  exact (min_def a b).symm

lemma max_field (a b : K) : Scalar.max a b = Max.max a b := by
  rw [Scalar.max, isDefined_field, if_pos rfl, max_comm]
  exact (max_def b a).symm

lemma clamp_field {lo hi : K} (h : lo ≤ hi) (a : K) :
    Scalar.clamp a lo hi = Max.max lo (Min.min a hi) := by
  rw [Scalar.clamp]
  split_ifs with hlow hhigh
  · exact (max_eq_left ((min_le_left a hi).trans (le_of_lt hlow))).symm
  · exact ((congrArg _ (min_eq_right (le_of_lt hhigh))).trans (max_eq_right h)).symm
  · exact ((congrArg _ (min_eq_left (not_lt.mp hhigh))).trans (max_eq_right (not_lt.mp hlow))).symm

lemma inUnit_field (t : K) : inUnit t = true ↔ 0 ≤ t ∧ t ≤ 1 := by
  rw [inUnit, zero_field, one_field, Bool.and_eq_true, decide_eq_true_eq, decide_eq_true_eq]

end Scalar

end Sightline
