import Mathlib.Tactic
import Sightline.Proofs.Geometry.Euclidean
import Sightline.Proofs.Intersection.Surface

/-!
# Hits in the world

The ray is taken into the frame of a shape, and what it hits there is taken back. Over the real
numbers nothing of it is lost: wherever the shape stands, however it is stretched or mirrored, the hit
lies on the ray as it was asked about, at its distance, and the normal is a unit vector orthogonal to
the surface that faces the ray.
-/

namespace Sightline

attribute [local instance] Scalar.ofField
attribute [-instance] Scalar.toAdd Scalar.toSub Scalar.toMul Scalar.toDiv Scalar.toNeg Scalar.toLT
  Scalar.toLE Scalar.toBEq

open Vec3

/-! ### Normals of triangles -/

namespace Triangle

variable {tri : Triangle ℝ} {tolerance : ℝ} {normal : Vec3 ℝ}

lemma normal?_field (tri : Triangle ℝ) (tolerance : ℝ) : tri.normal? tolerance =
    if tolerance ≤ tri.scaledNormal.norm then some (tri.scaledNormal / tri.scaledNormal.norm)
    else none := rfl

lemma norm_of_normal? (hpos : 0 < tolerance) (h : tri.normal? tolerance = some normal) :
    normal.norm = 1 := by
  rw [normal?_field] at h
  split_ifs at h with hlong
  obtain rfl := Option.some.inj h
  exact norm_normalized _ (hpos.trans_le hlong)

/-- The normal is orthogonal to the sides. -/
lemma dot_of_normal? (h : tri.normal? tolerance = some normal) {side : Vec3 ℝ × Vec3 ℝ}
    (hside : side ∈ tri.edges) : normal.dot (side.2 - side.1) = 0 := by
  rw [normal?_field] at h
  split_ifs at h with hlong
  obtain rfl := Option.some.inj h
  have hscaled : tri.scaledNormal.dot (side.2 - side.1) = 0 := by
    simp only [edges, List.mem_cons, List.not_mem_nil, or_false] at hside
    rcases hside with rfl | rfl | rfl <;>
    · simp only [scaledNormal, cross_eq, sub_eq, dot_eq]
      ring
  rw [sdiv_eq_smul, smul_dot, hscaled, mul_zero]

end Triangle

/-! ### Hits -/

namespace SurfaceTest

variable {test : SurfaceTest ℝ} {segment : Segment ℝ} {placement : Placement ℝ} {traits : Traits}
  {tri : Triangle ℝ} {normal : Vec3 ℝ} {hit : SurfaceHit ℝ}

/-- A hit read as one of the segment with the triangle as it stands in the world. -/
structure IsFaithful (segment : Segment ℝ) (placement : Placement ℝ) (tri : Triangle ℝ)
    (hit : SurfaceHit ℝ) : Prop where
  /-- The parameter lies on the segment. -/
  inUnit : 0 ≤ hit.t ∧ hit.t ≤ 1
  /-- The position is the one at the parameter. -/
  position_eq : hit.position = segment.pointAt hit.t
  /-- The distance is the part of the length up to the parameter. -/
  distance_eq : hit.distance = hit.t * segment.length
  /-- The normal has length one. -/
  unit : hit.normal.norm = 1
  /-- The normal is orthogonal to the sides of the triangle in the world. -/
  orthogonal : ∀ side ∈ tri.edges,
    hit.normal.dot (placement.toWorld side.2 - placement.toWorld side.1) = 0
  /-- The normal faces the ray. -/
  facing : hit.normal.dot segment.delta < 0

/-- The ray is not parallel to a surface it hits. -/
lemma Meets.slope_ne (h : test.Meets (RayFrame.make segment placement traits) tri normal hit)
    (hpos : 0 < test.tolerance) : normal.dot (placement.toLocalVector segment.delta) ≠ 0 := by
  intro hzero
  have hlong : test.tolerance ≤ (placement.toLocalVector segment.delta).norm := not_lt.mp h.long
  have hslanted : test.tolerance * (placement.toLocalVector segment.delta).norm ≤
      |normal.dot (placement.toLocalVector segment.delta)| := not_lt.mp h.slanted
  rw [hzero, abs_zero] at hslanted
  exact absurd hslanted (not_le.mpr (mul_pos hpos (hpos.trans_le hlong)))

/-- The normal of a hit is the stretched one, up to a factor that turns it against the ray. -/
lemma Meets.exists_factor (h : test.Meets (RayFrame.make segment placement traits) tri normal hit)
    (hpos : 0 < test.tolerance) (hregular : placement.IsRegular) :
    ∃ k, hit.normal = placement.stretchedNormal normal * k ∧
      (placement.stretchedNormal normal).norm * |k| = 1 ∧
      k * normal.dot (placement.toLocalVector segment.delta) < 0 := by
  have hstretched := placement.norm_stretchedNormal_pos hregular
    (Triangle.norm_of_normal? hpos h.normal_eq)
  have hinv := inv_pos.mpr hstretched
  have hfactor : (placement.stretchedNormal normal).norm *
      |(placement.stretchedNormal normal).norm⁻¹| = 1 := by
    rw [abs_of_pos hinv, mul_inv_cancel₀ hstretched.ne']
  have houtward : hit.normal = if normal.dot (placement.toLocalVector segment.delta) < 0
      then placement.toWorldNormal normal else -placement.toWorldNormal normal := by
    rw [h.outward_eq, Scalar.zero_field]
    rfl
  rw [Placement.toWorldNormal_eq hstretched, sdiv_eq_smul, neg_smul] at houtward
  -- a normal along the ray is the one of a surface that is left, and is turned
  rcases (h.slope_ne hpos).lt_or_gt with hentering | hleaving
  · rw [if_pos hentering] at houtward
    exact ⟨_, houtward, hfactor, mul_neg_of_pos_of_neg hinv hentering⟩
  · rw [if_neg hleaving.not_gt] at houtward
    exact ⟨_, houtward, by rwa [abs_neg],
      mul_neg_of_neg_of_pos (neg_neg_of_pos hinv) hleaving⟩

/-- A hit of a ray taken into the frame of a placement is one of the segment with the triangle as it
stands in the world, whether the ray enters or leaves there. -/
theorem hit_isFaithful {test : SurfaceTest ℝ} {segment : Segment ℝ} {placement : Placement ℝ}
    {traits : Traits} {tri : Triangle ℝ} {hit : SurfaceHit ℝ} (hpos : 0 < test.tolerance)
    (hregular : placement.IsRegular)
    (hhit : test.intersect? (RayFrame.make segment placement traits) tri = some hit) :
    IsFaithful segment placement tri hit := by
  obtain ⟨normal, hmeets⟩ := exists_meets hhit
  have hunit := (Scalar.inUnit_field hit.t).mp hmeets.inUnit
  have hposition : hit.position = segment.pointAt hit.t :=
    hmeets.position_eq.trans (placement.toWorld_pointAt hregular segment hit.t)
  obtain ⟨k, hnormal, hlength, hagainst⟩ := hmeets.exists_factor hpos hregular
  exact {
    inUnit := hunit
    position_eq := hposition
    distance_eq := by
      have hmoved : segment.pointAt hit.t - segment.start = segment.delta * hit.t := by
        simp only [Segment.pointAt, add_eq, sub_eq, smul_eq, add_sub_cancel_left]
      have hdistance : hit.distance = (hit.position - segment.start).norm := hmeets.distance_eq
      rw [hdistance, hposition, hmoved, norm_smul, abs_of_nonneg hunit.1, mul_comm, Segment.length]
    unit := by rw [hnormal, norm_smul, hlength]
    orthogonal := by
      intro side hside
      rw [hnormal, smul_dot, Placement.stretchedNormal_dot_sub _ _ hregular,
        Triangle.dot_of_normal? hmeets.normal_eq hside, mul_zero]
    facing := by
      rw [hnormal, smul_dot, Placement.stretchedNormal_dot _ hregular]
      exact hagainst }

/-- A turned and mirrored placement, in which the ray comes down on a right triangle. -/
theorem hit_isFaithful_mirrored :
    let test : SurfaceTest ℝ := ⟨1 / 100, 1 / 1000, true⟩
    let placement : Placement ℝ := ⟨⟨1, 2, 3⟩, ⟨⟨1 / 2, 1 / 2, 1 / 2⟩, 1 / 2⟩, ⟨2, -1, 1⟩⟩
    let segment : Segment ℝ := ⟨⟨2, 4, 2⟩, ⟨0, 4, 2⟩⟩
    let tri : Triangle ℝ := ⟨⟨0, 0, 0⟩, ⟨4, 0, 0⟩, ⟨0, 3, 0⟩⟩
    0 < test.tolerance ∧ placement.IsRegular ∧
      ∃ hit, test.intersect? (RayFrame.make segment placement Family.mesh.traits) tri = some hit ∧
        IsFaithful segment placement tri hit := by
  intro test placement segment tri
  have hpos : 0 < test.tolerance := by norm_num [test]
  have hregular : placement.IsRegular := by
    constructor <;> norm_num [Rotation.IsUnit, dot_eq, placement]
  set frame := RayFrame.make segment placement Family.mesh.traits with hframe
  have hstart : frame.start = ⟨1, 1, 1⟩ := by
    simp only [hframe, RayFrame.make, Placement.toLocal, Rotation.unapply, Rotation.conjugate,
      Rotation.apply_eq, sub_eq, neg_eq, cross_eq, smul_eq, add_eq, div_eq, placement, segment]
    norm_num
  have hdelta : frame.delta = ⟨0, 0, -2⟩ := by
    simp only [hframe, RayFrame.make, Placement.toLocalVector, Segment.delta, Rotation.unapply,
      Rotation.conjugate, Rotation.apply_eq, sub_eq, neg_eq, cross_eq, smul_eq, add_eq, div_eq,
      placement, segment]
    norm_num
  have hlength : frame.delta.norm = 2 := by
    rw [hdelta, norm_eq, dot_eq]
    norm_num
  have hscaled : tri.scaledNormal = ⟨0, 0, 12⟩ := by
    simp only [Triangle.scaledNormal, sub_eq, cross_eq, tri]
    norm_num
  have hnormal : tri.normal? test.tolerance = some ⟨0, 0, 1⟩ := by
    rw [Triangle.normal?_field, hscaled, norm_eq, dot_eq, sdiv_eq]
    norm_num [test]
  have hpoint : frame.pointAt (1 / 2) = ⟨1, 1, 0⟩ := by
    rw [RayFrame.pointAt, hstart, hdelta, smul_eq, add_eq]
    norm_num
  have hcovered : covers test.tolerance tri ⟨0, 0, 1⟩ ⟨1, 1, 0⟩ = true := by
    simp only [covers, Axis.all, Triangle.edges, Triangle.lower, Triangle.upper, List.all_cons,
      List.all_nil, coord, Vec3.min, Vec3.max, zipWith, Scalar.min_field, Scalar.max_field, norm_eq,
      dot_eq, cross_eq, sub_eq, tri, test]
    norm_num
  have hslope : dot ⟨0, 0, 1⟩ frame.delta = (-2 : ℝ) := by
    rw [hdelta]
    norm_num [dot_eq]
  have ht : (dot ⟨0, 0, 1⟩ tri.a - dot ⟨0, 0, 1⟩ frame.start) / dot ⟨0, 0, 1⟩ frame.delta =
      (1 / 2 : ℝ) := by
    rw [hstart, hslope]
    norm_num [dot_eq, tri]
  obtain ⟨hit, hhit⟩ : ∃ hit, test.intersect? frame tri = some hit := by
    refine exists_hit hnormal ?_ ?_ ?_ rfl ht ?_ (by rwa [hpoint])
    · norm_num [hlength, test]
    · norm_num [hlength, hslope, Scalar.abs_field, test]
    · rw [hslope, Scalar.zero_field]
      exact neg_neg_of_pos two_pos
    · norm_num [Scalar.inUnit_field]
  exact ⟨hpos, hregular, hit, hhit, hit_isFaithful hpos hregular hhit⟩

end SurfaceTest

end Sightline
