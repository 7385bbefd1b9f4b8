import Mathlib.Tactic
import Sightline.Proofs.Intersection.Exactness
import Sightline.Scene.Group

/-!
# The box of a group encloses its parts

The bounds of a group only take in the corners of its parts. Over the real numbers that is enough: a
point of a part goes no further in any direction than some corner does, so it lies between the bounds
along every axis of the group, however the parts are turned, mirrored or squashed.
-/

namespace Sightline

attribute [local instance] Scalar.ofField
attribute [-instance] Scalar.toAdd Scalar.toSub Scalar.toMul Scalar.toDiv Scalar.toNeg Scalar.toLT
  Scalar.toLE Scalar.toBEq

open Vec3

/-! ### Bounds -/

namespace Bounds

variable {b : Bounds ℝ} {p q : Vec3 ℝ} {points : List (Vec3 ℝ)}

/-- A point lies between the bounds along every axis. -/
def Holds (b : Bounds ℝ) (p : Vec3 ℝ) : Prop :=
  ∀ axis, b.lower.coord axis ≤ p.coord axis ∧ p.coord axis ≤ b.upper.coord axis

lemma coord_lower_including (b : Bounds ℝ) (p : Vec3 ℝ) (axis : Axis) :
    (b.including p).lower.coord axis = min (b.lower.coord axis) (p.coord axis) := by
  cases axis <;> exact Scalar.min_field _ _

lemma coord_upper_including (b : Bounds ℝ) (p : Vec3 ℝ) (axis : Axis) :
    (b.including p).upper.coord axis = max (b.upper.coord axis) (p.coord axis) := by
  cases axis <;> exact Scalar.max_field _ _

lemma Holds.including (h : b.Holds q) (p : Vec3 ℝ) : (b.including p).Holds q := by
  intro axis
  rw [coord_lower_including, coord_upper_including]
  exact ⟨(min_le_left _ _).trans (h axis).1, (h axis).2.trans (le_max_left _ _)⟩

lemma holds_including (b : Bounds ℝ) (p : Vec3 ℝ) : (b.including p).Holds p := by
  intro axis
  rw [coord_lower_including, coord_upper_including]
  exact ⟨min_le_right _ _, le_max_right _ _⟩

lemma Holds.foldl (h : b.Holds q) (points : List (Vec3 ℝ)) :
    (points.foldl Bounds.including b).Holds q := by
  induction points generalizing b with
  | nil => exact h
  | cons p rest ih => exact ih (h.including p)

lemma holds_foldl (b : Bounds ℝ) (h : q ∈ points) : (points.foldl Bounds.including b).Holds q := by
  induction points generalizing b with
  | nil => exact absurd h List.not_mem_nil
  | cons p rest ih =>
    rcases List.mem_cons.mp h with rfl | hrest
    · exact (b.holds_including q).foldl rest
    · exact ih (b.including p) hrest

/-- Bounds of some points hold each of them; as there are any, the default is not used. -/
lemma holds_ofPoints? (h : q ∈ points) (default : Bounds ℝ) :
    ((ofPoints? points).getD default).Holds q := by
  cases points with
  | nil => exact absurd h List.not_mem_nil
  | cons p rest =>
    rcases List.mem_cons.mp h with rfl | hrest
    · have hfirst : (⟨q, q⟩ : Bounds ℝ).Holds q := fun _ => ⟨le_rfl, le_rfl⟩
      exact hfirst.foldl rest
    · exact holds_foldl _ hrest

end Bounds

/-! ### Corners -/

section Corners

variable {s v : Vec3 ℝ}

/-- The coordinate of a corner along an axis, by the side it lies on. -/
noncomputable def cornerCoordinate (upper : Bool) : ℝ := if upper then 1 / 2 else -(1 / 2)

lemma mem_unitCorners (x y z : Bool) :
    (⟨cornerCoordinate x, cornerCoordinate y, cornerCoordinate z⟩ : Vec3 ℝ) ∈ unitCorners := by
  have hnumber : x.toNat + 2 * y.toNat + 4 * z.toNat < 8 := by
    have hx := x.toNat_le
    have hy := y.toNat_le
    have hz := z.toNat_le
    omega
  refine List.mem_map.mpr ⟨_, List.mem_range.mpr hnumber, ?_⟩
  simp only [unitCorner, Scalar.half_field]
  cases x <;> cases y <;> cases z <;> rfl

/-- One of two opposite faces lies no further in a direction than what is between them. -/
lemma exists_side_le {s v m : ℝ} (h : |v| ≤ |s| / 2) :
    ∃ upper, cornerCoordinate upper * s * m ≤ v * m := by
  have hbound : -(|s * m| / 2) ≤ v * m := by
    have hproduct := mul_le_mul_of_nonneg_right h (abs_nonneg m)
    rw [← abs_mul, div_mul_eq_mul_div, ← abs_mul] at hproduct
    linarith [neg_abs_le (v * m)]
  rcases le_total 0 (s * m) with hpos | hneg
  · refine ⟨false, ?_⟩
    rw [abs_of_nonneg hpos] at hbound
    calc cornerCoordinate false * s * m = -(s * m / 2) := by
          rw [cornerCoordinate, if_neg Bool.false_ne_true]
          ring
      _ ≤ v * m := hbound
  · refine ⟨true, ?_⟩
    rw [abs_of_nonpos hneg] at hbound
    calc cornerCoordinate true * s * m = -(-(s * m) / 2) := by
          rw [cornerCoordinate, if_pos rfl]
          ring
      _ ≤ v * m := hbound

/-- Some corner of a box lies no further in a direction than a point of the box. -/
lemma exists_corner_dot_le (m : Vec3 ℝ) (h : ∀ axis, |v.coord axis| ≤ |s.coord axis| / 2) :
    ∃ corner ∈ unitCorners, (corner.mul s).dot m ≤ v.dot m := by
  obtain ⟨x, hx⟩ := exists_side_le (m := m.x) (h .x)
  obtain ⟨y, hy⟩ := exists_side_le (m := m.y) (h .y)
  obtain ⟨z, hz⟩ := exists_side_le (m := m.z) (h .z)
  exact ⟨_, mem_unitCorners x y z, add_le_add (add_le_add hx hy) hz⟩

end Corners

/-! ### Parts -/

namespace Part

variable {part : Part ℝ} {p : Vec3 ℝ}

lemma coord_halfExtents_box (part : Part ℝ) (axis : Axis) :
    part.box.halfExtents.coord axis = |part.placement.scale.coord axis| / 2 := by
  have hextent : part.box.halfExtents.coord axis =
      |part.placement.scale.coord axis * (Scalar.half : ℝ)| := by
    cases axis <;> rfl
  rw [hextent, Scalar.half_field, mul_one_div, abs_div, abs_two]

/-- How far a point that is placed lies in a direction. -/
lemma dot_placed {rotation : Rotation ℝ} (hunit : rotation.IsUnit) (position v direction : Vec3 ℝ) :
    (position + rotation.apply v).dot direction =
      position.dot direction + v.dot (rotation.unapply direction) := by
  rw [← Rotation.apply_dot _ _ hunit]
  simp only [add_eq, dot_eq]
  ring

/-- Some corner of a part lies no further in a direction than a point of its box. -/
lemma exists_corner_le (hunit : part.placement.rotation.IsUnit) (hp : p ∈ part.box.region)
    (direction : Vec3 ℝ) : ∃ corner ∈ part.corners, corner.dot direction ≤ p.dot direction := by
  obtain ⟨v, hv, rfl⟩ := hp
  obtain ⟨corner, hcorner, hle⟩ := exists_corner_dot_le
    (part.placement.rotation.unapply direction) fun axis =>
      (hv axis).trans_eq (part.coord_halfExtents_box axis)
  refine ⟨_, List.mem_map_of_mem hcorner, ?_⟩
  have hplaced : part.box.center + part.box.rotation.apply v =
      part.placement.position + part.placement.rotation.apply v := rfl
  rw [Placement.toWorld, hplaced, dot_placed hunit, dot_placed hunit]
  exact add_le_add_right hle _

end Part

/-! ### Groups -/

namespace Group

variable {g : Group ℝ} {p q : Vec3 ℝ} {part : Part ℝ}

/-- The frame of a group is turned and moved, but not stretched. -/
structure IsRigid (g : Group ℝ) : Prop where
  unit : g.placement.rotation.IsUnit
  scale_eq : g.placement.scale = diagonal 1

lemma IsRigid.toLocal_eq (h : g.IsRigid) (p : Vec3 ℝ) :
    g.placement.toLocal p = g.placement.rotation.unapply (p - g.placement.position) := by
  rw [Placement.toLocal, h.scale_eq]
  simp only [diagonal, div_eq, div_one]

lemma IsRigid.mul_scale (h : g.IsRigid) (v : Vec3 ℝ) : v.mul g.placement.scale = v := by
  rw [h.scale_eq]
  simp only [diagonal, mul_eq, mul_one]

/-- A coordinate in the frame of a group tells how far a point lies in the direction of an axis. -/
lemma IsRigid.coord_toLocal (h : g.IsRigid) (p : Vec3 ℝ) (axis : Axis) :
    (g.placement.toLocal p).coord axis =
      (p - g.placement.position).dot (g.placement.rotation.apply (along 1 axis)) := by
  rw [dot_comm, Rotation.apply_dot _ _ h.unit, along_dot, one_mul, h.toLocal_eq]

lemma IsRigid.coord_le_coord_iff (h : g.IsRigid) (axis : Axis) :
    (g.placement.toLocal p).coord axis ≤ (g.placement.toLocal q).coord axis ↔
      p.dot (g.placement.rotation.apply (along 1 axis)) ≤
        q.dot (g.placement.rotation.apply (along 1 axis)) := by
  simp only [h.coord_toLocal, sub_eq, dot_eq]
  constructor <;> intro hle <;> linarith

/-- Bounds that hold the corners of a part hold all of it. -/
lemma holds_of_corners (h : g.IsRigid) (hunit : part.placement.rotation.IsUnit)
    (hcorners : ∀ corner ∈ part.corners, g.bounds.Holds (g.placement.toLocal corner))
    (hp : p ∈ part.box.region) : g.bounds.Holds (g.placement.toLocal p) := by
  intro axis
  set direction := g.placement.rotation.apply (along 1 axis) with hdirection
  constructor
  · obtain ⟨corner, hcorner, hle⟩ := part.exists_corner_le hunit hp direction
    exact (hcorners corner hcorner axis).1.trans ((h.coord_le_coord_iff axis).mpr hle)
  · obtain ⟨corner, hcorner, hle⟩ := part.exists_corner_le hunit hp (-direction)
    rw [dot_neg, dot_neg, neg_le_neg_iff] at hle
    exact ((h.coord_le_coord_iff axis).mpr hle).trans (hcorners corner hcorner axis).2

lemma IsRigid.toLocal_box (h : g.IsRigid) (p : Vec3 ℝ) :
    g.box.toLocal p = g.placement.toLocal p - g.bounds.center := by
  have hcenter : g.placement.toWorld g.bounds.center =
      g.placement.position + g.placement.rotation.apply g.bounds.center := by
    rw [Placement.toWorld, h.mul_scale]
  have hmoved : p - g.placement.toWorld g.bounds.center =
      (p - g.placement.position) - g.placement.rotation.apply g.bounds.center := by
    rw [hcenter]
    simp only [add_eq, sub_eq, sub_add_eq_sub_sub]
  calc g.box.toLocal p
      = g.placement.rotation.unapply (p - g.placement.toWorld g.bounds.center) := rfl
    _ = g.placement.rotation.unapply (p - g.placement.position) - g.bounds.center := by
        rw [hmoved, Rotation.unapply, Rotation.apply_sub, ← Rotation.unapply, ← Rotation.unapply,
          Rotation.unapply_apply _ h.unit]
    _ = g.placement.toLocal p - g.bounds.center := by rw [h.toLocal_eq]

/-- What lies between the bounds lies in the box. -/
lemma mem_box_of_holds (h : g.IsRigid) (hp : g.bounds.Holds (g.placement.toLocal p)) :
    p ∈ g.box.region := by
  have hunit : g.box.rotation.IsUnit := h.unit
  rw [OrientedBox.mem_region_iff hunit, h.toLocal_box]
  intro axis
  have hcoord : (g.placement.toLocal p - g.bounds.center).coord axis =
      (g.placement.toLocal p).coord axis -
        (g.bounds.lower.coord axis + g.bounds.upper.coord axis) * (1 / 2) := by
    rw [← Scalar.half_field]
    cases axis <;> rfl
  have hextent : g.box.halfExtents.coord axis =
      |(g.bounds.upper.coord axis - g.bounds.lower.coord axis) * (1 / 2)| := by
    have hmade : g.box.halfExtents = g.bounds.halfExtents.abs := by
      rw [box, OrientedBox.make, h.mul_scale]
    rw [hmade, ← Scalar.half_field]
    cases axis <;> rfl
  obtain ⟨hlower, hupper⟩ := hp axis
  rw [hcoord, hextent]
  refine le_trans (abs_le.mpr ?_) (le_abs_self _)
  constructor <;> linarith

/-! ### Groups as they are made -/

/-- A group that was put together from parts, or from one, and turned by unit quaternions as are its
parts. -/
inductive IsMade : Group ℝ → Prop where
  | ofParts (id : EntityId) (position : Vec3 ℝ) {rotation : Rotation ℝ} {parts : List (Part ℝ)} :
    rotation.IsUnit → (∀ part ∈ parts, part.placement.rotation.IsUnit) →
    IsMade (ofParts id position rotation parts)
  | single (id : EntityId) {placement : Placement ℝ} (shape : Shape) :
    placement.rotation.IsUnit → IsMade (single id placement shape)

lemma isRigid_ofParts {rotation : Rotation ℝ} (hunit : rotation.IsUnit) (id : EntityId)
    (position : Vec3 ℝ) (parts : List (Part ℝ)) : (ofParts id position rotation parts).IsRigid where
  unit := hunit
  scale_eq := by rw [ofParts, Scalar.one_field]

/-- The corners of all parts lie between the bounds that are set when a group is made. -/
lemma holds_corner_ofParts (id : EntityId) (position : Vec3 ℝ) (rotation : Rotation ℝ)
    {parts : List (Part ℝ)} (hpart : part ∈ parts) (hcorner : q ∈ part.corners) :
    let g := ofParts id position rotation parts
    g.bounds.Holds (g.placement.toLocal q) := by
  intro g
  have hmem : g.placement.toLocal q ∈ (parts.flatMap Part.corners).map g.placement.toLocal :=
    List.mem_map_of_mem (List.mem_flatMap.mpr ⟨part, hpart, hcorner⟩)
  exact Bounds.holds_ofPoints? hmem _

lemma region_subset_ofParts (id : EntityId) (position : Vec3 ℝ) {rotation : Rotation ℝ}
    {parts : List (Part ℝ)} (hunit : rotation.IsUnit) (hpart : part ∈ parts)
    (hpartUnit : part.placement.rotation.IsUnit) :
    part.box.region ⊆ (ofParts id position rotation parts).box.region := by
  intro p hp
  have hrigid := isRigid_ofParts hunit id position parts
  refine mem_box_of_holds hrigid (holds_of_corners hrigid hpartUnit ?_ hp)
  exact fun corner hcorner => holds_corner_ofParts id position rotation hpart hcorner

lemma IsMade.region_subset (h : g.IsMade) (hpart : part ∈ g.parts) :
    part.placement.rotation.IsUnit ∧ g.placement.rotation.IsUnit ∧
      part.box.region ⊆ g.box.region := by
  cases h with
  | ofParts id position hunit hparts =>
    exact ⟨hparts part hpart, hunit, region_subset_ofParts id position hunit hpart (hparts part hpart)⟩
  | single id shape hunit =>
    obtain rfl := List.mem_singleton.mp hpart
    exact ⟨hunit, hunit, region_subset_ofParts id _ hunit List.mem_cons_self hunit⟩

/-- Every point found in the box of a part is found in the box of the group. -/
theorem box_encloses {g : Group ℝ} (h : g.IsMade) {part : Part ℝ} (hpart : part ∈ g.parts)
    {p : Vec3 ℝ} (hp : part.box.contains p = true) : g.box.contains p = true := by
  obtain ⟨hpartUnit, hunit, hsubset⟩ := h.region_subset hpart
  have hturned : part.box.rotation.IsUnit := hpartUnit
  have hgroup : g.box.rotation.IsUnit := hunit
  rw [OrientedBox.contains_iff hturned] at hp
  exact (OrientedBox.contains_iff hgroup).mpr (hsubset hp)

/-- A mirrored part without thickness, turned against a group that has another part. -/
theorem box_encloses_mirrored :
    let turned : Rotation ℝ := ⟨⟨1 / 2, 1 / 2, 1 / 2⟩, 1 / 2⟩
    let plate : Part ℝ := ⟨⟨1⟩, 1, ⟨⟨1, 2, 3⟩, ⟨⟨0, 0, 1⟩, 0⟩, ⟨2, -4, 0⟩⟩, .cube⟩
    let other : Part ℝ := ⟨⟨2⟩, 2, ⟨⟨0, 0, 0⟩, turned, ⟨1, 1, 1⟩⟩, .sphere⟩
    let g : Group ℝ := Group.ofParts ⟨1⟩ ⟨1, 2, 3⟩ turned [plate, other]
    let p : Vec3 ℝ := ⟨2, 1, 3⟩
    g.IsMade ∧ plate ∈ g.parts ∧ plate.box.contains p = true ∧ g.box.contains p = true := by
  intro turned plate other g p
  have hturned : turned.IsUnit := by norm_num [Rotation.IsUnit, dot_eq, turned]
  have hplate : plate.placement.rotation.IsUnit := by
    norm_num [Rotation.IsUnit, dot_eq, plate]
  have hmade : g.IsMade := by
    refine .ofParts _ _ hturned fun part hpart => ?_
    simp only [List.mem_cons, List.not_mem_nil, or_false] at hpart
    rcases hpart with rfl | rfl
    · exact hplate
    · exact hturned
  have hpart : plate ∈ g.parts := List.mem_cons_self
  have hp : plate.box.contains p = true := by
    rw [OrientedBox.contains, OrientedBox.containsLocal_iff]
    have hlocal : plate.box.toLocal p = ⟨-1, 1, 0⟩ := by
      have hframe : plate.box.toLocal p =
          plate.placement.rotation.unapply (p - plate.placement.position) := rfl
      simp only [hframe, Rotation.unapply, Rotation.conjugate, Rotation.apply_eq, sub_eq, neg_eq,
        cross_eq, smul_eq, add_eq, plate, p]
      norm_num
    intro axis
    rw [hlocal, plate.coord_halfExtents_box]
    cases axis <;> norm_num [coord, plate]
  exact ⟨hmade, hpart, hp, box_encloses hmade hpart hp⟩

end Group

end Sightline
