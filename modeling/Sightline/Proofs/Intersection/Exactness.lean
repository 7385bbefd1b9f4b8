import Mathlib.Topology.Order.IntermediateValue
import Mathlib.Tactic
import Sightline.Intersection.Culler
import Sightline.Proofs.Geometry.Euclidean

/-!
# Exactness of culling

Over the real numbers the tests of a box against a segment decide whether they meet, as long as the
segment runs parallel to an axis of the box or clearly does not. What is accepted has a point in the
box, found by the test that accepts. The other way round a segment with a point in the box either
starts there or enters through the face of the slab it enters last; and it comes near the sphere
around the box, since the point of the line nearest to the middle does.
-/

namespace Sightline

lemma Axis.mem_all (axis : Axis) : axis ∈ Axis.all := by cases axis <;> simp [Axis.all]

lemma Axis.forall_iff {p : Axis → Prop} (axis : Axis) :
    (∀ a, p a) ↔ p axis ∧ p axis.next ∧ p axis.next.next := by
  constructor
  · exact fun h => ⟨h _, h _, h _⟩
  · rintro ⟨h, hnext, hlast⟩ a
    cases axis <;> cases a <;> assumption

/-! ### The tests -/

namespace Culler

variable {α : Type} [Scalar α] {c : Culler α} {segment : Segment α} {box : OrientedBox α}

/-- An end of the segment is found in the box, or one of its faces is found to be crossed. -/
def IsFound (tolerance : α) (segment : Segment α) (b : OrientedBox α) : Prop :=
  (b.contains segment.start = true ∨ b.contains segment.stop = true) ∨
    ∃ axis, crossesFaces tolerance b.halfExtents (b.toLocal segment.start)
      (b.toLocal segment.stop - b.toLocal segment.start) axis = true

lemma mayTouch_of_short (h : segment.length < c.tolerance) :
    c.mayTouch segment box = (box.expanded c.safety).contains segment.start := if_pos h

lemma mayTouch_iff_of_long (h : ¬ segment.length < c.tolerance) :
    c.mayTouch segment box = true ↔ nearSphere segment (box.expanded c.safety) = true ∧
      IsFound c.tolerance segment (box.expanded c.safety) := by
  rw [mayTouch, if_neg h]
  simp only [IsFound, OrientedBox.contains, Bool.and_eq_true, Bool.or_eq_true, List.any_eq_true,
    Axis.mem_all, true_and]

end Culler

attribute [local instance] Scalar.ofField
attribute [-instance] Scalar.toAdd Scalar.toSub Scalar.toMul Scalar.toDiv Scalar.toNeg Scalar.toLT
  Scalar.toLE Scalar.toBEq

open Vec3

namespace Vec3

lemma coord_add (u v : Vec3 ℝ) (axis : Axis) : (u + v).coord axis = u.coord axis + v.coord axis := by
  cases axis <;> rfl

lemma coord_smul (v : Vec3 ℝ) (s : ℝ) (axis : Axis) : (v * s).coord axis = v.coord axis * s := by
  cases axis <;> rfl

lemma coord_mul (u v : Vec3 ℝ) (axis : Axis) :
    (u.mul v).coord axis = u.coord axis * v.coord axis := by
  cases axis <;> rfl

end Vec3

/-! ### Boxes as sets -/

namespace OrientedBox

variable {b : OrientedBox ℝ} {p : Vec3 ℝ}

/-- No coordinate is larger than the half extent along its axis. -/
def Fits (half p : Vec3 ℝ) : Prop := ∀ axis : Axis, |p.coord axis| ≤ half.coord axis

/-- The points of a box: what fits into it, turned and moved into the world. -/
def region (b : OrientedBox ℝ) : Set (Vec3 ℝ) :=
  {p | ∃ v, Fits b.halfExtents v ∧ p = b.center + b.rotation.apply v}

lemma containsLocal_iff : b.containsLocal p = true ↔ Fits b.halfExtents p := by
  rw [containsLocal, List.all_eq_true]
  constructor
  · intro h axis
    exact of_decide_eq_true (h axis axis.mem_all)
  · intro h axis _
    exact decide_eq_true (h axis)

lemma mem_region_iff (hunit : b.rotation.IsUnit) :
    p ∈ b.region ↔ Fits b.halfExtents (b.toLocal p) := by
  rw [region, Set.mem_ofPred_eq, toLocal]
  constructor
  · rintro ⟨v, hv, rfl⟩
    have hmoved : b.center + b.rotation.apply v - b.center = b.rotation.apply v := by
      simp only [add_eq, sub_eq, add_sub_cancel_left]
    rwa [hmoved, Rotation.unapply_apply _ hunit]
  · intro h
    refine ⟨_, h, ?_⟩
    rw [Rotation.apply_unapply _ hunit]
    simp only [add_eq, sub_eq, add_sub_cancel]

lemma contains_iff (hunit : b.rotation.IsUnit) : b.contains p = true ↔ p ∈ b.region := by
  rw [contains, containsLocal_iff, mem_region_iff hunit]

/-- What the segment is in the frame of a box. -/
lemma toLocal_pointAt (b : OrientedBox ℝ) (s : Segment ℝ) (t : ℝ) :
    b.toLocal (s.pointAt t) = b.toLocal s.start + (b.toLocal s.stop - b.toLocal s.start) * t := by
  have hsplit : s.pointAt t - b.center =
      (s.start - b.center) + ((s.stop - b.center) - (s.start - b.center)) * t := by
    simp only [Segment.pointAt, Segment.delta, add_eq, sub_eq, smul_eq, Vec3.mk.injEq]
    refine ⟨?_, ?_, ?_⟩ <;> ring
  simp only [toLocal, Rotation.unapply, hsplit, Rotation.apply_add, Rotation.apply_smul,
    Rotation.apply_sub]

end OrientedBox

/-- A point of the segment lies in a region. -/
def Segment.Meets (s : Segment ℝ) (region : Set (Vec3 ℝ)) : Prop :=
  ∃ t : ℝ, (0 ≤ t ∧ t ≤ 1) ∧ s.pointAt t ∈ region

namespace Segment

variable {s : Segment ℝ} {region region' : Set (Vec3 ℝ)}

lemma Meets.mono (h : s.Meets region) (hsubset : region ⊆ region') : s.Meets region' := by
  obtain ⟨t, ht, hmem⟩ := h
  exact ⟨t, ht, hsubset hmem⟩

lemma pointAt_zero (s : Segment ℝ) : s.pointAt 0 = s.start := by
  simp only [pointAt, smul_eq, add_eq, mul_zero, add_zero]

lemma meets_of_start (h : s.start ∈ region) : s.Meets region :=
  ⟨0, ⟨le_rfl, zero_le_one⟩, by rwa [pointAt_zero]⟩

lemma meets_of_stop (h : s.stop ∈ region) : s.Meets region := by
  have hone : s.pointAt 1 = s.stop := by
    simp only [pointAt, delta, sub_eq, smul_eq, add_eq, mul_one, add_sub_cancel]
  exact ⟨1, ⟨zero_le_one, le_rfl⟩, by rwa [hone]⟩

end Segment

open OrientedBox

namespace Culler

variable {half start delta : Vec3 ℝ} {t r r' : ℝ}

/-! ### Soundness -/

/-- A line that is found to cross a face has a point in the box between the ends of the segment. -/
lemma fits_of_crossesFaces {tolerance : ℝ} (hpos : 0 ≤ tolerance) {axis : Axis}
    (hhalf : 0 ≤ half.coord axis)
    (h : crossesFaces tolerance half start delta axis = true) :
    ∃ t : ℝ, (0 ≤ t ∧ t ≤ 1) ∧ Fits half (start + delta * t) := by
  rw [crossesFaces] at h
  split_ifs at h with hparallel
  rw [Scalar.abs_field, not_le] at hparallel
  have hne : delta.coord axis ≠ 0 := by
    intro hzero
    rw [hzero, abs_zero] at hparallel
    exact absurd hparallel (not_lt.mpr hpos)
  obtain ⟨face, hface, h⟩ := List.any_eq_true.mp h
  simp only [Bool.and_eq_true, decide_eq_true_eq, Scalar.inUnit_field] at h
  refine ⟨_, h.1, (Axis.forall_iff axis).mpr ⟨?_, h.2.1, h.2.2⟩⟩
  have hmet : (start + delta * ((face - start.coord axis) / delta.coord axis)).coord axis = face := by
    rw [coord_add, coord_smul, mul_div_cancel₀ _ hne, add_sub_cancel]
  rw [hmet]
  simp only [List.mem_cons, List.not_mem_nil, or_false] at hface
  rcases hface with rfl | rfl
  · rw [abs_neg, abs_of_nonneg hhalf]
  · rw [abs_of_nonneg hhalf]

/-! ### The last slab to be entered -/

/-- Between two points of a slab lies nothing but the slab. -/
lemma between_slab {s d h : ℝ} (hr : |s + d * r| ≤ h) (hr' : |s + d * r'| ≤ h) (ht : r ≤ t)
    (ht' : t ≤ r') : |s + d * t| ≤ h := by
  rw [abs_le] at hr hr' ⊢
  rcases le_total 0 d with hd | hd
  · have := mul_le_mul_of_nonneg_left ht hd
    have := mul_le_mul_of_nonneg_left ht' hd
    constructor <;> linarith
  · have := mul_le_mul_of_nonpos_left ht hd
    have := mul_le_mul_of_nonpos_left ht' hd
    constructor <;> linarith

/-- A slab that is entered is entered through one of its faces. -/
lemma exists_face {s d h : ℝ} (hout : h < |s + d * r|) (hin : |s + d * r'| ≤ h) (hle : r ≤ r') :
    d ≠ 0 ∧ ∃ t, (r ≤ t ∧ t ≤ r') ∧ |s + d * t| = h := by
  have hne : d ≠ 0 := by
    rintro rfl
    simp only [zero_mul] at hout hin
    exact absurd hin (not_le.mpr hout)
  have hcontinuous : ContinuousOn (fun t => |s + d * t|) (Set.Icc r r') := by fun_prop
  obtain ⟨t, ht, hface⟩ := intermediate_value_Icc' hle hcontinuous ⟨hin, hout.le⟩
  exact ⟨hne, t, ht, hface⟩

/-- A segment that comes to lie in some slabs starts in all of them, or enters the last one through a
face of it. The induction is over the slabs: the moment found so far is put off where the next slab
is not entered yet. -/
lemma exists_entry (axes : List Axis) (hr : 0 ≤ r)
    (hin : ∀ axis ∈ axes, |start.coord axis + delta.coord axis * r| ≤ half.coord axis) :
    ∃ t, (0 ≤ t ∧ t ≤ r) ∧
      (∀ axis ∈ axes, |start.coord axis + delta.coord axis * t| ≤ half.coord axis) ∧
      (t = 0 ∨ ∃ axis ∈ axes, delta.coord axis ≠ 0 ∧
        |start.coord axis + delta.coord axis * t| = half.coord axis) := by
  induction axes with
  | nil => exact ⟨0, ⟨le_rfl, hr⟩, fun _ h => absurd h List.not_mem_nil, .inl rfl⟩
  | cons axis axes ih =>
    obtain ⟨haxis, haxes⟩ := List.forall_mem_cons.mp hin
    obtain ⟨t, ⟨ht, htr⟩, hslabs, hmoment⟩ := ih haxes
    by_cases hslab : |start.coord axis + delta.coord axis * t| ≤ half.coord axis
    · refine ⟨t, ⟨ht, htr⟩, List.forall_mem_cons.mpr ⟨hslab, hslabs⟩, hmoment.imp_right ?_⟩
      rintro ⟨entered, hmem, hface⟩
      exact ⟨entered, List.mem_cons_of_mem _ hmem, hface⟩
    · obtain ⟨hne, t', ⟨hlow, hhigh⟩, hface⟩ := exists_face (not_le.mp hslab) haxis htr
      refine ⟨t', ⟨ht.trans hlow, hhigh⟩, List.forall_mem_cons.mpr ⟨hface.le, fun a ha => ?_⟩,
        .inr ⟨axis, List.mem_cons_self, hne, hface⟩⟩
      exact between_slab (hslabs a ha) (haxes a ha) hlow hhigh

/-- A line at a face of the box, and within the box there, is found to cross that face. -/
lemma crossesFaces_of_fits {tolerance : ℝ} {axis : Axis} (hclear : tolerance < |delta.coord axis|)
    (hne : delta.coord axis ≠ 0) (hunit : 0 ≤ t ∧ t ≤ 1) (hfits : Fits half (start + delta * t))
    (hface : |start.coord axis + delta.coord axis * t| = half.coord axis) :
    crossesFaces tolerance half start delta axis = true := by
  obtain ⟨-, hnext, hlast⟩ := (Axis.forall_iff axis).mp hfits
  obtain ⟨face, hmem, hmet⟩ : ∃ face ∈ [-half.coord axis, half.coord axis],
      start.coord axis + delta.coord axis * t = face := by
    rcases eq_or_eq_neg_of_abs_eq hface with hmet | hmet
    · exact ⟨_, List.mem_cons_of_mem _ List.mem_cons_self, hmet⟩
    · exact ⟨_, List.mem_cons_self, hmet⟩
  have ht : (face - start.coord axis) / delta.coord axis = t := by
    rw [← hmet, add_sub_cancel_left, mul_div_cancel_left₀ _ hne]
  rw [crossesFaces, if_neg (by rwa [Scalar.abs_field, not_le]), List.any_eq_true]
  refine ⟨face, hmem, ?_⟩
  simp only [ht, Bool.and_eq_true, decide_eq_true_eq, Scalar.inUnit_field]
  exact ⟨hunit, hnext, hlast⟩

/-! ### The sphere around a box -/

section Sphere

variable {e v : Vec3 ℝ} {s radius : ℝ}

/-- No point of a line through the origin is nearer to a point than the one at its shadow. -/
lemma dot_self_sub_smul (he : e.dot e = 1) (v : Vec3 ℝ) (s : ℝ) :
    (v - e * s).dot (v - e * s) =
      (v - e * v.dot e).dot (v - e * v.dot e) + (v.dot e - s) * (v.dot e - s) := by
  simp only [dot_eq, sub_eq, smul_eq] at he ⊢
  linear_combination (s * s - (v.x * e.x + v.y * e.y + v.z * e.z) ^ 2) * he

/-- A ball that a line through the origin meets is near to the line, and the middle of the ball is
near to the point met. -/
lemma near_of_meets (he : e.dot e = 1) (hmeets : (v - e * s).norm ≤ radius) :
    (v - e * v.dot e).norm ≤ radius ∧ |v.dot e - s| ≤ radius := by
  have hradius : 0 ≤ radius := (norm_nonneg _).trans hmeets
  have hsquare : (v - e * s).dot (v - e * s) ≤ radius * radius := by
    rw [← norm_mul_self]
    exact mul_self_le_mul_self (norm_nonneg _) hmeets
  rw [dot_self_sub_smul he] at hsquare
  have hperpendicular := (v - e * v.dot e).dot_self_nonneg
  have hshadow := mul_self_nonneg (v.dot e - s)
  exact ⟨Real.sqrt_le_iff.mpr ⟨hradius, by nlinarith⟩, abs_le_of_sq_le_sq (by nlinarith) hradius⟩

/-- What fits into a box lies in the sphere through its corners. -/
lemma norm_le_of_fits {p : Vec3 ℝ} (h : Fits half p) : p.norm ≤ half.norm := by
  have hsquare (axis : Axis) : p.coord axis * p.coord axis ≤ half.coord axis * half.coord axis := by
    rw [← abs_mul_abs_self]
    exact mul_self_le_mul_self (abs_nonneg _) (h axis)
  exact Real.sqrt_le_sqrt (add_le_add (add_le_add (hsquare .x) (hsquare .y)) (hsquare .z))

/-- A segment with a point in a box comes near the sphere around it. -/
lemma nearSphere_of_mem {segment : Segment ℝ} {b : OrientedBox ℝ} (hunit : b.rotation.IsUnit)
    (hlong : 0 < segment.length) (ht : 0 ≤ t ∧ t ≤ 1) (hmem : segment.pointAt t ∈ b.region) :
    nearSphere segment b = true := by
  -- the point met is at the shadow of the ball's middle up to the radius, along the direction `e`
  set e := segment.delta / segment.delta.norm with he
  have hunitLength : e.dot e = 1 := by
    rw [← norm_mul_self, he, norm_normalized _ hlong, mul_one]
  have hdelta : segment.delta = e * segment.length := by
    have hne : segment.delta.norm ≠ 0 := hlong.ne'
    simp only [he, Segment.length, sdiv_eq, smul_eq, div_mul_cancel₀ _ hne]
  have hpoint : segment.pointAt t - b.center =
      -(b.center - segment.start - e * (segment.length * t)) := by
    rw [Segment.pointAt, hdelta]
    simp only [add_eq, sub_eq, smul_eq, neg_eq, Vec3.mk.injEq]
    refine ⟨?_, ?_, ?_⟩ <;> ring
  have hmeets : (b.center - segment.start - e * (segment.length * t)).norm ≤ b.radius := by
    have hfits := norm_le_of_fits ((mem_region_iff hunit).mp hmem)
    rwa [toLocal, Rotation.unapply, Rotation.norm_apply _ hunit.conjugate, hpoint, norm_neg] at hfits
  obtain ⟨hnear, hshadow⟩ := near_of_meets hunitLength hmeets
  rw [abs_le] at hshadow
  have hpart : 0 ≤ segment.length * t := mul_nonneg hlong.le ht.1
  have hpart' : segment.length * t ≤ segment.length := mul_le_of_le_one_right hlong.le ht.2
  simp only [nearSphere, ← he, Bool.not_eq_true', Bool.or_eq_false_iff, decide_eq_false_iff_not]
  refine ⟨⟨not_lt.mpr hnear, not_lt.mpr (by linarith)⟩, not_lt.mpr ?_⟩
  have hlength : segment.delta.norm = segment.length := rfl
  rw [hlength]
  linarith

end Sphere

/-! ### What culling decides -/

section Deciding

variable {c : Culler ℝ} {segment : Segment ℝ} {box : OrientedBox ℝ}

lemma expanded_nonneg {safety : Vec3 ℝ} (hhalf : ∀ axis, 0 ≤ box.halfExtents.coord axis)
    (hsafety : ∀ axis, 0 ≤ safety.coord axis) (axis : Axis) :
    0 ≤ (box.expanded safety).halfExtents.coord axis := by
  rw [expanded, coord_mul]
  exact mul_nonneg (hhalf axis) (hsafety axis)

/-- Nothing is accepted that has no point in the box. -/
lemma meets_of_mayTouch (hunit : box.rotation.IsUnit) (hpos : 0 < c.tolerance)
    (hhalf : ∀ axis, 0 ≤ box.halfExtents.coord axis) (hsafety : ∀ axis, 0 ≤ c.safety.coord axis)
    (h : c.mayTouch segment box = true) : segment.Meets (box.expanded c.safety).region := by
  have hturned : (box.expanded c.safety).rotation.IsUnit := hunit
  by_cases hshort : segment.length < c.tolerance
  · rw [mayTouch_of_short hshort, contains_iff hturned] at h
    exact Segment.meets_of_start h
  · obtain ⟨-, (hfound | hfound) | ⟨axis, hcrosses⟩⟩ := (mayTouch_iff_of_long hshort).mp h
    · exact Segment.meets_of_start ((contains_iff hturned).mp hfound)
    · exact Segment.meets_of_stop ((contains_iff hturned).mp hfound)
    · have hface := expanded_nonneg hhalf hsafety axis
      obtain ⟨t, ht, hfits⟩ := fits_of_crossesFaces hpos.le hface hcrosses
      refine ⟨t, ht, ?_⟩
      rwa [mem_region_iff hturned, toLocal_pointAt]

/-- In the frame of the box, the segment moves along an axis by more than the tolerance or not at
all. -/
def IsClear (tolerance : ℝ) (segment : Segment ℝ) (box : OrientedBox ℝ) : Prop :=
  ∀ axis, (box.toLocal segment.stop - box.toLocal segment.start).coord axis = 0 ∨
    tolerance < |(box.toLocal segment.stop - box.toLocal segment.start).coord axis|

/-- A segment with a point in the box is accepted, unless it is almost parallel to a face. -/
lemma mayTouch_of_meets (hunit : box.rotation.IsUnit) (hpos : 0 < c.tolerance)
    (hlong : c.tolerance ≤ segment.length) (hclear : IsClear c.tolerance segment box)
    (h : segment.Meets (box.expanded c.safety).region) :
    c.mayTouch segment box = true := by
  have hturned : (box.expanded c.safety).rotation.IsUnit := hunit
  obtain ⟨r, hr, hmem⟩ := h
  refine (mayTouch_iff_of_long (not_lt.mpr hlong)).mpr
    ⟨nearSphere_of_mem hturned (hpos.trans_le hlong) hr hmem, ?_⟩
  set start := (box.expanded c.safety).toLocal segment.start with hstart
  set delta := (box.expanded c.safety).toLocal segment.stop - start with hdelta
  have hfits : Fits (box.expanded c.safety).halfExtents (start + delta * r) := by
    rwa [hstart, hdelta, ← toLocal_pointAt, ← mem_region_iff hturned]
  simp only [Fits, coord_add, coord_smul] at hfits
  obtain ⟨t, ht, hslabs, hmoment⟩ := exists_entry Axis.all hr.1 fun axis _ => hfits axis
  have hfits : Fits (box.expanded c.safety).halfExtents (start + delta * t) := by
    simp only [Fits, coord_add, coord_smul]
    exact fun axis => hslabs axis axis.mem_all
  rcases hmoment with rfl | ⟨axis, -, hne, hface⟩
  · left
    left
    rw [contains, containsLocal_iff]
    simpa only [smul_eq, add_eq, mul_zero, add_zero] using hfits
  · right
    exact ⟨axis, crossesFaces_of_fits ((hclear axis).resolve_left hne) hne
      ⟨ht.1, ht.2.trans hr.2⟩ hfits hface⟩

/-- Away from segments that are almost parallel to a face, culling accepts exactly the segments that
have a point in the widened box, however it is turned and however flat it is. -/
theorem mayTouch_iff_meets (c : Culler ℝ) (segment : Segment ℝ) (box : OrientedBox ℝ)
    (hunit : box.rotation.IsUnit) (hhalf : ∀ axis, 0 ≤ box.halfExtents.coord axis)
    (hsafety : ∀ axis, 0 ≤ c.safety.coord axis) (hpos : 0 < c.tolerance)
    (hlong : c.tolerance ≤ segment.length) (hclear : IsClear c.tolerance segment box) :
    c.mayTouch segment box = true ↔ segment.Meets (box.expanded c.safety).region :=
  ⟨meets_of_mayTouch hunit hpos hhalf hsafety, mayTouch_of_meets hunit hpos hlong hclear⟩

/-- A turned box without thickness, which a slanted segment meets at its rim. -/
theorem mayTouch_iff_meets_flat :
    let c : Culler ℝ := ⟨1 / 100, ⟨1, 1, 1⟩⟩
    let segment : Segment ℝ := ⟨⟨-1, 1 / 2, 1 / 2⟩, ⟨1, 3 / 2, 1 / 2⟩⟩
    let box : OrientedBox ℝ := ⟨⟨0, 0, 0⟩, ⟨⟨1 / 2, 1 / 2, 1 / 2⟩, 1 / 2⟩, ⟨1, 2, 0⟩⟩
    (box.rotation.IsUnit ∧ (∀ axis, 0 ≤ box.halfExtents.coord axis) ∧
      (∀ axis, 0 ≤ c.safety.coord axis) ∧ 0 < c.tolerance ∧ c.tolerance ≤ segment.length ∧
      IsClear c.tolerance segment box) ∧
    c.mayTouch segment box = true := by
  intro c segment box
  have hunit : box.rotation.IsUnit := by norm_num [Rotation.IsUnit, dot_eq, box]
  have hhalf (axis : Axis) : 0 ≤ box.halfExtents.coord axis := by
    cases axis <;> norm_num [coord, box]
  have hsafety (axis : Axis) : 0 ≤ c.safety.coord axis := by cases axis <;> norm_num [coord, c]
  have hpos : 0 < c.tolerance := by norm_num [c]
  have hlong : c.tolerance ≤ segment.length := by
    refine Real.le_sqrt_of_sq_le ?_
    norm_num [Segment.delta, dot_eq, sub_eq, segment, c]
  have hturned (p : Vec3 ℝ) : box.toLocal p = ⟨p.y, p.z, p.x⟩ := by
    simp only [toLocal, Rotation.unapply, Rotation.conjugate, Rotation.apply_eq, sub_eq, neg_eq,
      cross_eq, smul_eq, add_eq, box, Vec3.mk.injEq]
    refine ⟨?_, ?_, ?_⟩ <;> ring
  have hclear : IsClear c.tolerance segment box := by
    intro axis
    rw [hturned, hturned]
    cases axis <;> norm_num [coord, sub_eq, segment, c]
  refine ⟨⟨hunit, hhalf, hsafety, hpos, hlong, hclear⟩,
    (mayTouch_iff_meets c segment box hunit hhalf hsafety hpos hlong hclear).mpr ?_⟩
  refine ⟨1 / 2, by norm_num, ?_⟩
  have hlocal : (box.expanded c.safety).toLocal (segment.pointAt (1 / 2)) = ⟨1, 1 / 2, 0⟩ := by
    have hsame : (box.expanded c.safety).toLocal = box.toLocal := rfl
    rw [hsame, hturned]
    norm_num [Segment.pointAt, Segment.delta, add_eq, sub_eq, smul_eq, segment]
  rw [mem_region_iff (b := box.expanded c.safety) hunit, hlocal]
  intro axis
  cases axis <;> norm_num [expanded, mul_eq, coord, box, c]

end Deciding

end Culler

end Sightline
