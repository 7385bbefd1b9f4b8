import Mathlib.Analysis.SpecialFunctions.Sqrt
import Mathlib.Tactic
import Sightline.Geometry.OrientedBox
import Sightline.Geometry.Segment
import Sightline.Proofs.Scalar.Field

/-!
# Geometry without rounding

Vectors, rotations and placements over the real numbers. A unit quaternion turns without stretching,
and turning back undoes it; a placement that squashes no axis keeps segments, and keeps normals
orthogonal.
-/

namespace Sightline

noncomputable instance : SquareRoot ℝ := ⟨Real.sqrt⟩

attribute [local instance] Scalar.ofField
attribute [-instance] Scalar.toAdd Scalar.toSub Scalar.toMul Scalar.toDiv Scalar.toNeg Scalar.toLT
  Scalar.toLE Scalar.toBEq

/-! ### Vectors -/

namespace Vec3

variable (u v w : Vec3 ℝ) (s : ℝ)

lemma add_eq : u + v = ⟨u.x + v.x, u.y + v.y, u.z + v.z⟩ := rfl

lemma sub_eq : u - v = ⟨u.x - v.x, u.y - v.y, u.z - v.z⟩ := rfl

lemma neg_eq : -v = ⟨-v.x, -v.y, -v.z⟩ := rfl

lemma smul_eq : v * s = ⟨v.x * s, v.y * s, v.z * s⟩ := rfl

lemma sdiv_eq : v / s = ⟨v.x / s, v.y / s, v.z / s⟩ := rfl

lemma mul_eq : u.mul v = ⟨u.x * v.x, u.y * v.y, u.z * v.z⟩ := rfl

lemma div_eq : u.div v = ⟨u.x / v.x, u.y / v.y, u.z / v.z⟩ := rfl

lemma dot_eq : u.dot v = u.x * v.x + u.y * v.y + u.z * v.z := rfl

lemma cross_eq : u.cross v =
    ⟨u.y * v.z - u.z * v.y, u.z * v.x - u.x * v.z, u.x * v.y - u.y * v.x⟩ := rfl

lemma norm_eq : v.norm = √(v.dot v) := rfl

lemma dot_comm : u.dot v = v.dot u := by
  simp only [dot_eq]
  ring

lemma dot_neg : u.dot (-v) = -u.dot v := by
  simp only [neg_eq, dot_eq]
  ring

lemma along_dot (axis : Axis) : (along s axis).dot v = s * v.coord axis := by
  cases axis <;> simp [along, dot_eq, coord, Scalar.zero_field]

lemma dot_self_nonneg : 0 ≤ v.dot v := by
  rw [dot_eq]
  exact add_nonneg (add_nonneg (mul_self_nonneg _) (mul_self_nonneg _)) (mul_self_nonneg _)

lemma norm_nonneg : 0 ≤ v.norm := Real.sqrt_nonneg _

lemma norm_mul_self : v.norm * v.norm = v.dot v := Real.mul_self_sqrt v.dot_self_nonneg

lemma norm_pos_of_dot_pos (h : 0 < v.dot v) : 0 < v.norm := Real.sqrt_pos.mpr h

/-- The square of a length bounds each coordinate. -/
lemma eq_zero_of_dot_self (h : v.dot v = 0) : v.x = 0 ∧ v.y = 0 ∧ v.z = 0 := by
  rw [dot_eq] at h
  refine ⟨?_, ?_, ?_⟩ <;> nlinarith [mul_self_nonneg v.x, mul_self_nonneg v.y, mul_self_nonneg v.z]

lemma norm_smul : (v * s).norm = v.norm * |s| := by
  have hdot : (v * s).dot (v * s) = v.dot v * (s * s) := by
    simp only [smul_eq, dot_eq]
    ring
  rw [norm_eq, hdot, Real.sqrt_mul v.dot_self_nonneg, Real.sqrt_mul_self_eq_abs, norm_eq]

lemma smul_dot : (u * s).dot v = s * u.dot v := by
  simp only [smul_eq, dot_eq]
  ring

lemma sdiv_eq_smul : v / s = v * s⁻¹ := by simp only [sdiv_eq, smul_eq, div_eq_mul_inv]

lemma neg_smul : -(v * s) = v * -s := by simp only [neg_eq, smul_eq, mul_neg]

lemma norm_neg : (-v).norm = v.norm := by
  simp only [norm_eq, neg_eq, dot_eq, neg_mul_neg]

lemma norm_normalized (h : 0 < v.norm) : (v / v.norm).norm = 1 := by
  rw [sdiv_eq_smul, norm_smul, abs_of_pos (inv_pos.mpr h), mul_inv_cancel₀ h.ne']

end Vec3

/-! ### Rotations -/

namespace Rotation

open Vec3

variable {q : Rotation ℝ} (u v : Vec3 ℝ) (s : ℝ)

/-- The quaternion has length one. -/
def IsUnit (q : Rotation ℝ) : Prop := q.axis.dot q.axis + q.w * q.w = 1

lemma IsUnit.conjugate (h : q.IsUnit) : q.conjugate.IsUnit := by
  simp only [IsUnit, Rotation.conjugate, neg_eq, dot_eq, neg_mul_neg] at h ⊢
  exact h

lemma conjugate_conjugate (q : Rotation ℝ) : q.conjugate.conjugate = q := by
  simp only [conjugate, neg_eq, neg_neg]

lemma apply_eq (q : Rotation ℝ) (v : Vec3 ℝ) : q.apply v =
    q.axis.cross v * (2 : ℝ) * q.w + q.axis.cross (q.axis.cross v * (2 : ℝ)) + v := by
  rw [apply, Scalar.two_field]

lemma apply_sub (q : Rotation ℝ) : q.apply (u - v) = q.apply u - q.apply v := by
  simp only [apply_eq, add_eq, sub_eq, smul_eq, cross_eq, Vec3.mk.injEq]
  refine ⟨?_, ?_, ?_⟩ <;> ring

lemma apply_add (q : Rotation ℝ) : q.apply (u + v) = q.apply u + q.apply v := by
  simp only [apply_eq, add_eq, smul_eq, cross_eq, Vec3.mk.injEq]
  refine ⟨?_, ?_, ?_⟩ <;> ring

lemma apply_smul (q : Rotation ℝ) : q.apply (v * s) = q.apply v * s := by
  simp only [apply_eq, add_eq, smul_eq, cross_eq, Vec3.mk.injEq]
  refine ⟨?_, ?_, ?_⟩ <;> ring

/-- A unit quaternion keeps scalar products. -/
lemma dot_apply (h : q.IsUnit) : (q.apply u).dot (q.apply v) = u.dot v := by
  obtain ⟨⟨a, b, c⟩, d⟩ := q
  simp only [IsUnit, apply_eq, add_eq, smul_eq, cross_eq, dot_eq] at h ⊢
  linear_combination 4 * ((a * a + b * b + c * c) * (u.x * v.x + u.y * v.y + u.z * v.z) -
    (a * u.x + b * u.y + c * u.z) * (a * v.x + b * v.y + c * v.z)) * h

lemma norm_apply (h : q.IsUnit) : (q.apply v).norm = v.norm := by
  rw [norm_eq, dot_apply v v h, norm_eq]

/-- A unit quaternion is turned back by its conjugate. -/
lemma unapply_apply (h : q.IsUnit) : q.unapply (q.apply v) = v := by
  obtain ⟨⟨a, b, c⟩, d⟩ := q
  obtain ⟨x, y, z⟩ := v
  simp only [IsUnit, unapply, conjugate, apply_eq, add_eq, neg_eq, smul_eq, cross_eq, dot_eq,
    Vec3.mk.injEq] at h ⊢
  refine ⟨?_, ?_, ?_⟩
  · linear_combination 4 * ((a * a + b * b + c * c) * x - (a * x + b * y + c * z) * a) * h
  · linear_combination 4 * ((a * a + b * b + c * c) * y - (a * x + b * y + c * z) * b) * h
  · linear_combination 4 * ((a * a + b * b + c * c) * z - (a * x + b * y + c * z) * c) * h

lemma apply_unapply (h : q.IsUnit) : q.apply (q.unapply v) = v := by
  have hback := unapply_apply v h.conjugate
  rwa [unapply, conjugate_conjugate] at hback

/-- Scalar products with a turned vector are those of turning the other one back. -/
lemma apply_dot (h : q.IsUnit) : (q.apply u).dot v = u.dot (q.unapply v) := by
  rw [← dot_apply u (q.unapply v) h, apply_unapply v h]

end Rotation

/-! ### Placements -/

namespace Placement

open Vec3

variable {p : Placement ℝ} (u v : Vec3 ℝ)

/-- The quaternion is a unit and no axis is squashed. -/
structure IsRegular (p : Placement ℝ) : Prop where
  /-- The quaternion has length one. -/
  unit : p.rotation.IsUnit
  /-- No factor is zero. -/
  scale_ne : p.scale.x ≠ 0 ∧ p.scale.y ≠ 0 ∧ p.scale.z ≠ 0

lemma mul_div_scale (h : p.IsRegular) : (v.div p.scale).mul p.scale = v := by
  obtain ⟨hx, hy, hz⟩ := h.scale_ne
  simp only [mul_eq, div_eq, div_mul_cancel₀ _ hx, div_mul_cancel₀ _ hy, div_mul_cancel₀ _ hz]

/-- A segment in the frame is the same segment in the world. -/
lemma toWorld_pointAt (h : p.IsRegular) (s : Segment ℝ) (t : ℝ) :
    p.toWorld (p.toLocal s.start + p.toLocalVector s.delta * t) = s.pointAt t := by
  have hlinear : (p.toLocal s.start + p.toLocalVector s.delta * t).mul p.scale =
      (p.toLocal s.start).mul p.scale + (p.toLocalVector s.delta).mul p.scale * t := by
    simp only [add_eq, smul_eq, mul_eq, Vec3.mk.injEq]
    refine ⟨?_, ?_, ?_⟩ <;> ring
  rw [toWorld, hlinear, Rotation.apply_add, Rotation.apply_smul, toLocal, toLocalVector,
    mul_div_scale _ h, mul_div_scale _ h, Rotation.apply_unapply _ h.unit,
    Rotation.apply_unapply _ h.unit, Segment.pointAt]
  simp only [add_eq, sub_eq, smul_eq, Vec3.mk.injEq]
  refine ⟨?_, ?_, ?_⟩ <;> ring

/-- What a normal is before it is brought to length one. -/
noncomputable def stretchedNormal (p : Placement ℝ) (n : Vec3 ℝ) : Vec3 ℝ :=
  p.rotation.apply (n.div p.scale)

/-- A normal is divided by the scale where points are multiplied, so that scalar products stay. -/
lemma stretchedNormal_dot_sub (h : p.IsRegular) (n : Vec3 ℝ) :
    (p.stretchedNormal n).dot (p.toWorld u - p.toWorld v) = n.dot (u - v) := by
  obtain ⟨hx, hy, hz⟩ := h.scale_ne
  have hmoved : p.toWorld u - p.toWorld v = p.rotation.apply (u.mul p.scale - v.mul p.scale) := by
    rw [Rotation.apply_sub, toWorld, toWorld]
    simp only [add_eq, sub_eq, Vec3.mk.injEq]
    refine ⟨?_, ?_, ?_⟩ <;> ring
  rw [stretchedNormal, hmoved, Rotation.dot_apply _ _ h.unit]
  simp only [mul_eq, div_eq, sub_eq, dot_eq]
  field_simp

lemma stretchedNormal_dot (h : p.IsRegular) (n : Vec3 ℝ) :
    (p.stretchedNormal n).dot v = n.dot (p.toLocalVector v) := by
  rw [stretchedNormal, Rotation.apply_dot _ _ h.unit, toLocalVector]
  simp only [div_eq, dot_eq]
  ring

/-- A normal that does not vanish in the frame does not vanish in the world. -/
lemma norm_stretchedNormal_pos (h : p.IsRegular) {n : Vec3 ℝ} (hn : n.norm = 1) :
    0 < (p.stretchedNormal n).norm := by
  refine norm_pos_of_dot_pos _ (lt_of_le_of_ne (dot_self_nonneg _) fun hzero => ?_)
  rw [stretchedNormal, Rotation.dot_apply _ _ h.unit] at hzero
  obtain ⟨hx, hy, hz⟩ := eq_zero_of_dot_self _ hzero.symm
  obtain ⟨hsx, hsy, hsz⟩ := h.scale_ne
  have hunit := n.norm_mul_self
  rw [dot_eq, (div_eq_zero_iff.mp hx).resolve_right hsx, (div_eq_zero_iff.mp hy).resolve_right hsy,
    (div_eq_zero_iff.mp hz).resolve_right hsz, hn] at hunit
  norm_num at hunit

lemma toWorldNormal_eq {n : Vec3 ℝ} (hpos : 0 < (p.stretchedNormal n).norm) :
    p.toWorldNormal n = p.stretchedNormal n / (p.stretchedNormal n).norm := by
  rw [toWorldNormal, Scalar.zero_field]
  exact if_pos hpos

end Placement

end Sightline
