import Mathlib.Tactic
import Sightline.Proofs.Intersection.Exactness
import Sightline.Proofs.Single.Order

/-!
# Wider margins

A wider margin moves the faces of a box. Every test but one keeps its answer when they move, in
singles too: rounding keeps the order of the half extents, and with it that of the radii. A face that
is crossed is the exception. Where it moves off, the segment may pass the widened box through the
faces of another axis only, and these are not looked at when the segment is almost parallel to them.
Without rounding nothing else goes wrong (`mayTouch_of_isClear`).
-/

namespace Sightline

open Single

/-! ### Longer vectors -/

namespace Vec3

variable {v w : Vec3 Float32}

/-- Squares of what is not negative keep the order. -/
lemma square_le_square {a b : Float32} (ha : 0 ≤ a) (hab : a ≤ b) :
    0 ≤ a * a ∧ a * a ≤ b * b := by
  have hb := le_trans_single ha hab
  have hasquare := mul_self_nonneg_single ha
  have hbsquare := mul_self_nonneg_single hb
  exact ⟨hasquare, mul_le_mul_single (le_iff.mp hasquare).1.2 (le_iff.mp hbsquare).1.2 ha ha hab hab⟩

/-- A vector with larger components is no shorter. -/
lemma norm_le_norm (h : ∀ axis, 0 ≤ v.coord axis ∧ v.coord axis ≤ w.coord axis) :
    0 ≤ v.norm ∧ v.norm ≤ w.norm := by
  have hsum {a b c d : Float32} (hac : 0 ≤ a ∧ a ≤ c) (hbd : 0 ≤ b ∧ b ≤ d) :
      0 ≤ a + b ∧ a + b ≤ c + d := by
    have hlow := add_nonneg_single hac.1 hbd.1
    have hhigh := add_nonneg_single (le_trans_single hac.1 hac.2) (le_trans_single hbd.1 hbd.2)
    exact ⟨hlow, add_le_add_single (le_iff.mp hlow).1.2 (le_iff.mp hhigh).1.2 hac.2 hbd.2⟩
  obtain ⟨hnonneg, hle⟩ := hsum (hsum (square_le_square (h .x).1 (h .x).2)
    (square_le_square (h .y).1 (h .y).2)) (square_le_square (h .z).1 (h .z).2)
  have hroot : v.norm ≤ w.norm := sqrt_le_sqrt_single hnonneg hle
  exact ⟨sqrt_nonneg_single (le_iff.mp hroot).1.1, hroot⟩

end Vec3

/-! ### Larger boxes -/

namespace OrientedBox

variable {b b' : OrientedBox Float32} {segment : Segment Float32} {tolerance : Float32}
  {p start delta : Vec3 Float32}

/-- Of two boxes in the same place, the second is as large as the first along every axis. -/
structure Widens (b b' : OrientedBox Float32) : Prop where
  /-- The middle stays. -/
  center_eq : b'.center = b.center
  /-- The axes stay. -/
  rotation_eq : b'.rotation = b.rotation
  /-- No half extent is negative, and none shrinks. -/
  halfExtents_le : ∀ axis, 0 ≤ b.halfExtents.coord axis ∧
    b.halfExtents.coord axis ≤ b'.halfExtents.coord axis

namespace Widens

lemma toLocal_eq (h : Widens b b') : b'.toLocal p = b.toLocal p := by
  rw [toLocal, toLocal, h.center_eq, h.rotation_eq]

lemma contains (h : Widens b b') (hp : b.contains p = true) : b'.contains p = true := by
  rw [OrientedBox.contains, containsLocal, List.all_eq_true] at hp ⊢
  intro axis hmem
  rw [h.toLocal_eq]
  exact decide_eq_true (le_trans_single (of_decide_eq_true (hp axis hmem)) (h.halfExtents_le axis).2)

lemma nearSphere (h : Widens b b') (hnear : Culler.nearSphere segment b = true) :
    Culler.nearSphere segment b' = true := by
  have hradius : 0 ≤ b.radius ∧ b.radius ≤ b'.radius := Vec3.norm_le_norm h.halfExtents_le
  simp only [Culler.nearSphere, h.center_eq, Bool.not_eq_true', Bool.or_eq_false_iff,
    decide_eq_false_iff_not] at hnear ⊢
  obtain ⟨⟨hside, hbehind⟩, hpast⟩ := hnear
  -- the length is a number, since its sum with the larger radius is
  refine ⟨⟨fun hlt => hside (lt_of_le_of_lt_single hradius.2 hlt), fun hlt => hbehind
    (lt_of_lt_of_le_single hlt (neg_le_neg_single hradius.2))⟩, fun hlt => hpast ?_⟩
  have hreach := (lt_iff.mp hlt).1.1
  have hlength : 0 ≤ segment.delta.norm := sqrt_nonneg_single hreach.of_add.1
  have hsum := (le_iff.mp (add_nonneg_single hlength hradius.1)).1.2
  exact lt_of_le_of_lt_single
    (add_le_add_single hsum hreach (le_refl_single hreach.of_add.1) hradius.2) hlt

lemma crossesFaces {axis : Axis} (h : Widens b b')
    (hstays : b'.halfExtents.coord axis = b.halfExtents.coord axis)
    (hcrosses : Culler.crossesFaces tolerance b.halfExtents start delta axis = true) :
    Culler.crossesFaces tolerance b'.halfExtents start delta axis = true := by
  rw [Culler.crossesFaces] at hcrosses ⊢
  split_ifs at hcrosses ⊢ with hparallel
  rw [List.any_eq_true] at hcrosses ⊢
  obtain ⟨face, hface, hmet⟩ := hcrosses
  refine ⟨face, by rwa [hstays], ?_⟩
  simp only [Bool.and_eq_true, decide_eq_true_eq] at hmet ⊢
  exact ⟨hmet.1, le_trans_single hmet.2.1 (h.halfExtents_le _).2,
    le_trans_single hmet.2.2 (h.halfExtents_le _).2⟩

end Widens

/-- A wider margin gives a larger box. -/
lemma expanded_widens {box : OrientedBox Float32} {safety safety' : Vec3 Float32}
    (hhalf : ∀ axis, IsFinite (box.halfExtents.coord axis) ∧ 0 ≤ box.halfExtents.coord axis)
    (hsafety : ∀ axis, IsFinite (safety.coord axis) ∧ IsFinite (safety'.coord axis) ∧
      0 ≤ safety.coord axis ∧ safety.coord axis ≤ safety'.coord axis) :
    Widens (box.expanded safety) (box.expanded safety') where
  center_eq := rfl
  rotation_eq := rfl
  halfExtents_le axis := by
    have hexpanded (s : Vec3 Float32) : (box.expanded s).halfExtents.coord axis =
        box.halfExtents.coord axis * s.coord axis := by cases axis <;> rfl
    obtain ⟨hfinite, hnonneg⟩ := hhalf axis
    obtain ⟨hsfinite, hsfinite', hsnonneg, hle⟩ := hsafety axis
    rw [hexpanded, hexpanded]
    exact ⟨mul_nonneg_single hfinite hsfinite hnonneg hsnonneg,
      mul_le_mul_single (mul_finite hfinite hsfinite).1 (mul_finite hfinite hsfinite').1 hnonneg
        hsnonneg (le_refl_single hfinite.1) hle⟩

end OrientedBox

namespace Culler

open OrientedBox

/-! ### Margins in singles -/

/-- Something is found that a larger box does not move: an end of the segment in the box, or the
crossing of a face that stays. -/
def IsKept (tolerance : Float32) (segment : Segment Float32) (b b' : OrientedBox Float32) : Prop :=
  (b.contains segment.start = true ∨ b.contains segment.stop = true) ∨
    ∃ axis, b'.halfExtents.coord axis = b.halfExtents.coord axis ∧
      crossesFaces tolerance b.halfExtents (b.toLocal segment.start)
        (b.toLocal segment.stop - b.toLocal segment.start) axis = true

/-- What stays is found in the larger box. -/
lemma IsKept.isFound {tolerance : Float32} {segment : Segment Float32} {b b' : OrientedBox Float32}
    (h : IsKept tolerance segment b b') (hwidens : Widens b b') : IsFound tolerance segment b' := by
  simp only [IsFound, hwidens.toLocal_eq]
  rcases h with (hstart | hstop) | ⟨axis, hstays, hcrosses⟩
  · exact .inl (.inl (hwidens.contains hstart))
  · exact .inl (.inr (hwidens.contains hstop))
  · exact .inr ⟨axis, hwidens.crossesFaces hstays hcrosses⟩

/-- A segment that is accepted stays so with a wider margin exactly when it is too short to have a
direction, or one of its ends or a crossing is found in the wider box; in particular when what was
found first does not move. The sphere around the box never makes a difference. Over the reals the
crossing is always found again unless the segment is almost parallel to a face
(`mayTouch_of_isClear`). -/
theorem mayTouch_widened (tolerance : Float32) (safety safety' : Vec3 Float32)
    (segment : Segment Float32) (box : OrientedBox Float32)
    (hhalf : ∀ axis, Scalar.isFinite (box.halfExtents.coord axis) = true ∧
      0 ≤ box.halfExtents.coord axis)
    (hsafety : ∀ axis, Scalar.isFinite (safety.coord axis) = true ∧
      Scalar.isFinite (safety'.coord axis) = true ∧
      1 ≤ safety.coord axis ∧ safety.coord axis ≤ safety'.coord axis)
    (haccepted : mayTouch ⟨tolerance, safety⟩ segment box = true) :
    (mayTouch ⟨tolerance, safety'⟩ segment box = true ↔
      segment.length < tolerance ∨ IsFound tolerance segment (box.expanded safety')) ∧
    (IsKept tolerance segment (box.expanded safety) (box.expanded safety') →
      mayTouch ⟨tolerance, safety'⟩ segment box = true) := by
  have hwidens : Widens (box.expanded safety) (box.expanded safety') := by
    refine expanded_widens (fun axis => (hhalf axis).imp_left .of_isFinite) fun axis => ?_
    obtain ⟨hfinite, hfinite', hone, hle⟩ := hsafety axis
    exact ⟨.of_isFinite hfinite, .of_isFinite hfinite', le_trans_single (by decide) hone, hle⟩
  have hiff : mayTouch ⟨tolerance, safety'⟩ segment box = true ↔
      segment.length < tolerance ∨ IsFound tolerance segment (box.expanded safety') := by
    by_cases hshort : segment.length < tolerance
    · rw [mayTouch_of_short hshort] at haccepted ⊢
      exact iff_of_true (hwidens.contains haccepted) (.inl hshort)
    · have hnear := hwidens.nearSphere ((mayTouch_iff_of_long hshort).mp haccepted).1
      rw [mayTouch_iff_of_long hshort, or_iff_right hshort]
      exact and_iff_right hnear
  exact ⟨hiff, fun hkept => hiff.mpr (.inr (hkept.isFound hwidens))⟩

/-- A thin plate that is crossed along its plane, when the margin across it grows. -/
theorem mayTouch_widened_plate :
    let safety : Vec3 Float32 := ⟨1, 1, 1⟩
    let safety' : Vec3 Float32 := ⟨1, 1, 1.5⟩
    let segment : Segment Float32 := ⟨⟨-2, 0, 0⟩, ⟨2, 0, 0⟩⟩
    let box : OrientedBox Float32 := ⟨⟨0, 0, 0⟩, Rotation.identity, ⟨1, 1, 1e-6⟩⟩
    (∀ axis, Scalar.isFinite (box.halfExtents.coord axis) = true ∧
      0 ≤ box.halfExtents.coord axis) ∧
    (∀ axis, Scalar.isFinite (safety.coord axis) = true ∧
      Scalar.isFinite (safety'.coord axis) = true ∧
      1 ≤ safety.coord axis ∧ safety.coord axis ≤ safety'.coord axis) ∧
    mayTouch ⟨1e-5, safety⟩ segment box = true ∧
    IsKept 1e-5 segment (box.expanded safety) (box.expanded safety') ∧
    mayTouch ⟨1e-5, safety'⟩ segment box = true := by
  intro safety safety' segment box
  have hhalf (axis : Axis) : Scalar.isFinite (box.halfExtents.coord axis) = true ∧
      0 ≤ box.halfExtents.coord axis := by
    cases axis <;> decide +kernel
  have hsafety (axis : Axis) : Scalar.isFinite (safety.coord axis) = true ∧
      Scalar.isFinite (safety'.coord axis) = true ∧
      1 ≤ safety.coord axis ∧ safety.coord axis ≤ safety'.coord axis := by
    cases axis <;> decide +kernel
  have haccepted : mayTouch ⟨1e-5, safety⟩ segment box = true := by decide +kernel
  have hkept : IsKept 1e-5 segment (box.expanded safety) (box.expanded safety') :=
    .inr ⟨.x, by decide +kernel⟩
  exact ⟨hhalf, hsafety, haccepted, hkept,
    (mayTouch_widened 1e-5 safety safety' segment box hhalf hsafety haccepted).2 hkept⟩

/-- A segment that ascends through a thin plate by less than the tolerance. It leaves the plate
through a side, but the widened plate through its top. -/
theorem wider_margin_rejects :
    let segment : Segment Float32 := ⟨⟨-2, 0, -6.3e-6⟩, ⟨2, 0, 3.3e-6⟩⟩
    let box : OrientedBox Float32 := ⟨⟨0, 0, 0⟩, Rotation.identity, ⟨1, 1, 1e-6⟩⟩
    (segment.isFinite = true ∧ box.halfExtents.isFinite = true ∧ (0 : Float32) < 1e-5) ∧
    mayTouch ⟨1e-5, ⟨1, 1, 1⟩⟩ segment box = true ∧
    mayTouch ⟨1e-5, ⟨1.1, 1.1, 1.1⟩⟩ segment box = false := by
  decide +kernel

/-! ### Margins without rounding -/

section Exact

attribute [local instance] Scalar.ofField
attribute [-instance] Scalar.toAdd Scalar.toSub Scalar.toMul Scalar.toDiv Scalar.toNeg Scalar.toLT
  Scalar.toLE Scalar.toBEq

variable {tolerance : ℝ} {safety safety' : Vec3 ℝ} {segment : Segment ℝ} {box : OrientedBox ℝ}

lemma region_subset (hhalf : ∀ axis, 0 ≤ box.halfExtents.coord axis)
    (hsafety : ∀ axis, safety.coord axis ≤ safety'.coord axis) :
    (box.expanded safety).region ⊆ (box.expanded safety').region := by
  rintro p ⟨v, hfits, hp⟩
  refine ⟨v, fun axis => (hfits axis).trans ?_, hp⟩
  rw [expanded, expanded, Vec3.coord_mul, Vec3.coord_mul]
  exact mul_le_mul_of_nonneg_left (hsafety axis) (hhalf axis)

/-- Without rounding a wider margin keeps every segment that is not almost parallel to a face: the
point that makes the smaller box accept it lies in the larger one. -/
theorem mayTouch_of_isClear (hunit : box.rotation.IsUnit) (hpos : 0 < tolerance)
    (hhalf : ∀ axis, 0 ≤ box.halfExtents.coord axis)
    (hsafety : ∀ axis, 0 ≤ safety.coord axis ∧ safety.coord axis ≤ safety'.coord axis)
    (hclear : IsClear tolerance segment box)
    (h : mayTouch ⟨tolerance, safety⟩ segment box = true) :
    mayTouch ⟨tolerance, safety'⟩ segment box = true := by
  have hsubset := region_subset hhalf fun axis => (hsafety axis).2
  by_cases hshort : segment.length < tolerance
  · rw [mayTouch_of_short hshort, contains_iff (b := box.expanded _) hunit] at h ⊢
    exact hsubset h
  · have hmeets := meets_of_mayTouch (c := ⟨tolerance, safety⟩) hunit hpos hhalf
      (fun axis => (hsafety axis).1) h
    exact mayTouch_of_meets (c := ⟨tolerance, safety'⟩) hunit hpos (not_lt.mp hshort) hclear
      (hmeets.mono hsubset)

end Exact

end Culler

end Sightline
