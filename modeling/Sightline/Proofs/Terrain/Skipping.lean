import Mathlib.Tactic
import Sightline.Proofs.Intersection.Surface
import Sightline.Proofs.Single.Neutral
import Sightline.Proofs.Terrain.Safety

/-!
# What a survey skips

A strip is not looked at when the ends of the segment lie above or below all of it. The triangles are
more generous than that: they are met up to the tolerance outside of their bounds, and at points that
are computed from the start and the rounded difference of the ends. A segment that is clear of the
strip by the tolerance, with its far end taken as it is computed, meets no triangle at all.
-/

namespace Sightline

namespace Single

variable {a b c x : Float32} {xs : List Float32}

/-! ### Greatest and least elevations -/

lemma max_le (ha : a ≤ c) (hb : b ≤ c) : Scalar.max a b ≤ c := by
  rw [Scalar.max]
  split_ifs
  exacts [ha, hb, ha]

lemma le_min (ha : c ≤ a) (hb : c ≤ b) : c ≤ Scalar.min a b := by
  rw [Scalar.min]
  split_ifs
  exacts [ha, hb, ha]

lemma le_max (ha : IsNumber a) : a ≤ Scalar.max a b ∧ (IsNumber b → b ≤ Scalar.max a b) := by
  rw [Scalar.max]
  split_ifs with hle hdefined
  · exact ⟨le_refl_single ha, fun _ => hle⟩
  · have hb := isDefined_iff.mp hdefined
    rw [le_iff, and_iff_right ⟨hb, ha⟩, not_le] at hle
    exact ⟨le_of_units ha hb hle.le, fun _ => le_refl_single hb⟩
  · exact ⟨le_refl_single ha, fun hb => absurd (isDefined_iff.mpr hb) hdefined⟩

lemma min_le (ha : IsNumber a) : Scalar.min a b ≤ a ∧ (IsNumber b → Scalar.min a b ≤ b) := by
  rw [Scalar.min]
  split_ifs with hle hdefined
  · exact ⟨le_refl_single ha, fun _ => hle⟩
  · have hb := isDefined_iff.mp hdefined
    rw [le_iff, and_iff_right ⟨ha, hb⟩, not_le] at hle
    exact ⟨le_of_units hb ha hle.le, fun _ => le_refl_single hb⟩
  · exact ⟨le_refl_single ha, fun hb => absurd (isDefined_iff.mpr hb) hdefined⟩

/-- Picking one of two elevations over and over gives one that bounds them all, except for those
that are no numbers. The bound is from above or from below, as `R` says. -/
lemma foldl_bounds {R : Float32 → Float32 → Prop} {pick : Float32 → Float32 → Float32}
    (hrefl : ∀ {a}, IsNumber a → R a a) (htrans : ∀ {a b c}, R a b → R b c → R a c)
    (hnumber : ∀ {a b}, R a b → IsNumber b)
    (hpick : ∀ {a b}, IsNumber a → R a (pick a b) ∧ (IsNumber b → R b (pick a b)))
    (ha : IsNumber a) : R a (xs.foldl pick a) ∧ ∀ x ∈ xs, IsNumber x → R x (xs.foldl pick a) := by
  induction xs generalizing a with
  | nil => exact ⟨hrefl ha, fun _ hx => absurd hx List.not_mem_nil⟩
  | cons y ys ih =>
    obtain ⟨hleft, hright⟩ := hpick (b := y) ha
    obtain ⟨hstart, hrest⟩ := ih (hnumber hleft)
    refine ⟨htrans hleft hstart, fun x hx hdefined => ?_⟩
    rcases List.mem_cons.mp hx with rfl | hx
    · exact htrans (hright hdefined) hstart
    · exact hrest x hx hdefined

lemma le_foldl_max (ha : IsNumber a) (hx : x ∈ xs) (hnumber : IsNumber x) :
    x ≤ xs.foldl Scalar.max a :=
  (foldl_bounds (R := (· ≤ ·)) le_refl_single le_trans_single (fun h => (le_iff.mp h).1.2) le_max
    ha).2 x hx hnumber

lemma foldl_min_le (ha : IsNumber a) (hx : x ∈ xs) (hnumber : IsNumber x) :
    xs.foldl Scalar.min a ≤ x :=
  (foldl_bounds (R := (· ≥ ·)) le_refl_single (fun h h' => le_trans_single h' h)
    (fun h => (le_iff.mp h).1.1) min_le ha).2 x hx hnumber

end Single

open Single

/-! ### The ray in the frame of the world -/

namespace RayFrame

variable {segment : Segment Float32} {traits : Traits} {v : Vec3 Float32}

/-- Turning by the identity multiplies by zeros and adds these up. -/
lemma units_unapply_identity (h : IsNumber ((Rotation.identity : Rotation Float32).unapply v).z) :
    units ((Rotation.identity : Rotation Float32).unapply v).z = units v.z := by
  have hsplit : ((Rotation.identity : Rotation Float32).unapply v).z =
      (-0 * v.y - -0 * v.x) * 2 * 1 + (-0 * ((-0 * v.x - -0 * v.z) * 2) -
        -0 * ((-0 * v.z - -0 * v.y) * 2)) + v.z := rfl
  have hzero : units (-0 : Float32) = 0 := rfl
  -- every product with a zero is a zero once it is a number, which the sum being one shows
  rw [hsplit] at h ⊢
  have hturn := h.of_add.1
  have hfirst := hturn.of_add.1
  have hsecond := hturn.of_add.2
  have hcross := hfirst.of_mul.1.of_mul.1
  have hnone : units ((-0 * v.y - -0 * v.x) * 2 * 1) = 0 := by
    refine units_zero_mul hfirst (units_zero_mul hfirst.of_mul.1 ?_)
    exact units_zero_sub_zero hcross (units_zero_mul hcross.of_sub.1 hzero)
      (units_zero_mul hcross.of_sub.2 hzero)
  refine units_zero_add h ?_
  rw [units_zero_add hturn hnone]
  exact units_zero_sub_zero hsecond (units_zero_mul hsecond.of_sub.1 hzero)
    (units_zero_mul hsecond.of_sub.2 hzero)

/-- The frame of the world leaves elevations as they are. -/
lemma units_world_start (h : IsNumber (world segment traits).start.z) :
    units (world segment traits).start.z = units segment.start.z := by
  have hread : (world segment traits).start.z = ((Rotation.identity : Rotation Float32).unapply
      (segment.start - Vec3.zero)).z / 1 := rfl
  have hmoved : (segment.start - Vec3.zero).z = segment.start.z - 0 := rfl
  rw [hread] at h ⊢
  rw [units_div_one, units_unapply_identity h.of_div.1, hmoved, sub_zero]

lemma units_world_delta (h : IsNumber (world segment traits).delta.z) :
    units (world segment traits).delta.z = units segment.delta.z := by
  have hread : (world segment traits).delta.z =
      ((Rotation.identity : Rotation Float32).unapply segment.delta).z / 1 := rfl
  rw [hread] at h ⊢
  rw [units_div_one, units_unapply_identity h.of_div.1]

variable {t : Float32}

/-- A point of the ray is no lower and no higher than both its ends, the far one taken as it is
computed. -/
lemma pointAt_between (h : IsNumber ((world segment traits).pointAt t).z)
    (hunit : Scalar.inUnit t = true) (hnear : IsNumber segment.start.z)
    (hfar : IsNumber (segment.start + segment.delta).z) :
    let z := ((world segment traits).pointAt t).z
    (segment.start.z ≤ z ∧ z ≤ (segment.start + segment.delta).z) ∨
      ((segment.start + segment.delta).z ≤ z ∧ z ≤ segment.start.z) := by
  have hread : ((world segment traits).pointAt t).z =
      (world segment traits).start.z + (world segment traits).delta.z * t := rfl
  have hsum : (segment.start + segment.delta).z = segment.start.z + segment.delta.z := rfl
  simp only [Scalar.inUnit, Bool.and_eq_true, decide_eq_true_eq] at hunit
  rw [hread] at h ⊢
  rw [hsum] at hfar ⊢
  obtain ⟨hstart, hpart⟩ := h.of_add
  have hdelta := hpart.of_mul.1
  have hstartUnits := units_world_start hstart
  have hdeltaUnits := units_world_delta hdelta
  have hstartLe := le_of_units hstart hnear hstartUnits.le
  have hstartGe := le_of_units hnear hstart hstartUnits.ge
  obtain ⟨hlow, hhigh⟩ := mul_unit_between hpart hunit.1 hunit.2
  rw [hdeltaUnits] at hlow hhigh
  have hshare := hfar.of_add.2
  rcases le_total 0 (units segment.delta.z) with hsign | hsign
  · rw [min_eq_left hsign] at hlow
    rw [max_eq_right hsign] at hhigh
    exact .inl ⟨le_trans_single hstartGe (le_add_of_nonneg_single h (zero_le_iff.mpr ⟨hpart, hlow⟩)),
      add_le_add_single h hfar hstartLe (le_of_units hpart hshare hhigh)⟩
  · rw [min_eq_right hsign] at hlow
    rw [max_eq_left hsign] at hhigh
    have hnonpos := le_of_units hpart isNumber_zero hhigh
    exact .inr ⟨add_le_add_single hfar h hstartGe (le_of_units hshare hpart hlow),
      le_trans_single (add_le_of_nonpos_single h hnonpos) hstartLe⟩

end RayFrame

/-! ### The point in the plane -/

namespace SurfaceTest

variable {tolerance : Float32} {tri : Triangle Float32} {normal point p q : Vec3 Float32}

/-- A point that is held against a side has a number for its elevation, and so has the side. -/
lemma isNumber_of_inside {bound : Float32} (h : bound ≤ normal.dot ((q - p).cross (point - p))) :
    IsNumber point.z ∧ IsNumber p.z ∧ IsNumber q.z := by
  have hnumber := (le_iff.mp h).1.2
  have hread : normal.dot ((q - p).cross (point - p)) =
      normal.x * ((q.y - p.y) * (point.z - p.z) - (q.z - p.z) * (point.y - p.y)) +
        normal.y * ((q - p).cross (point - p)).y + normal.z * ((q - p).cross (point - p)).z := rfl
  rw [hread] at hnumber
  have hcross := hnumber.of_add.1.of_add.1.of_mul.2
  exact ⟨hcross.of_sub.1.of_mul.2.of_sub.1, hcross.of_sub.2.of_mul.1.of_sub.2,
    hcross.of_sub.2.of_mul.1.of_sub.1⟩

/-- A point on a surface is no lower and no higher than its corners by more than the tolerance. -/
lemma elevation_of_covers (h : covers tolerance tri normal point = true) :
    (IsNumber point.z ∧ IsNumber tri.a.z ∧ IsNumber tri.b.z ∧ IsNumber tri.c.z) ∧
    ¬ point.z < tri.lower.z - tolerance ∧ ¬ tri.upper.z + tolerance < point.z := by
  simp only [covers, Axis.all, Triangle.edges, List.all_cons, List.all_nil, Bool.and_eq_true,
    Bool.not_eq_true', Bool.or_eq_false_iff, decide_eq_false_iff_not, decide_eq_true_eq,
    Bool.and_true] at h
  obtain ⟨⟨-, -, hbounds⟩, hab, hbc, -⟩ := h
  obtain ⟨hpoint, ha, hb⟩ := isNumber_of_inside hab
  obtain ⟨-, -, hc⟩ := isNumber_of_inside hbc
  exact ⟨⟨hpoint, ha, hb, hc⟩, hbounds⟩

end SurfaceTest

/-! ### Strips that are clear -/

namespace GroundStrip

variable {ground : Heightmap Float32} {segment : Segment Float32} {tolerance : Float32}
  {tri : Triangle Float32}

/-- Both ends of the segment, the far one as it is computed from the start and the difference, lie
above or below the whole strip by more than the tolerance. -/
def isClear (strip : GroundStrip) (tolerance : Float32) (segment : Segment Float32) : Bool :=
  let near := segment.start.z
  let far := (segment.start + segment.delta).z
  let above := strip.highest + tolerance
  let below := strip.lowest - tolerance
  (decide (above < near) && decide (above < far)) || (decide (near < below) && decide (far < below))

/-- The bounds of a strip are those of all corners with numbers for elevations. -/
lemma bounds_of_mem_cellCorners {cell : Cell} {p : Vec3 Float32}
    (hcell : cell ∈ (under ground segment).cells) (hp : p ∈ cellCorners ground cell)
    (hnumber : IsNumber p.z) :
    (under ground segment).lowest ≤ p.z ∧ p.z ≤ (under ground segment).highest := by
  rw [under_eq] at hcell ⊢
  have hz := List.mem_map_of_mem (f := Vec3.z)
    (List.mem_flatten.mpr ⟨_, List.mem_map_of_mem hcell, hp⟩)
  exact ⟨foldl_min_le isNumber_infinity hz hnumber,
    le_foldl_max (isNumber_neg.mpr isNumber_infinity) hz hnumber⟩

lemma mem_cellCorners_of_mem {cell : Cell} (htri : tri ∈ cellTriangles ground cell) :
    tri.a ∈ cellCorners ground cell ∧ tri.b ∈ cellCorners ground cell ∧
      tri.c ∈ cellCorners ground cell := by
  simp only [cellTriangles, cellCorners_eq, gridPoints, split, List.map_cons, List.map_nil,
    List.mem_cons, List.not_mem_nil, or_false] at htri ⊢
  rcases htri with rfl | rfl <;> simp

/-- The bounds of a strip are those of every triangle with numbers for elevations. -/
lemma bounds_of_mem (hmem : tri ∈ (under ground segment).triangles) (ha : IsNumber tri.a.z)
    (hb : IsNumber tri.b.z) (hc : IsNumber tri.c.z) :
    (under ground segment).lowest ≤ tri.lower.z ∧ tri.upper.z ≤ (under ground segment).highest := by
  rw [triangles_under] at hmem
  obtain ⟨cell, hcell, htri⟩ := List.mem_flatMap.mp hmem
  obtain ⟨hma, hmb, hmc⟩ := mem_cellCorners_of_mem htri
  have hda := bounds_of_mem_cellCorners hcell hma ha
  have hdb := bounds_of_mem_cellCorners hcell hmb hb
  have hdc := bounds_of_mem_cellCorners hcell hmc hc
  exact ⟨le_min (le_min hda.1 hdb.1) hdc.1, max_le (max_le hda.2 hdb.2) hdc.2⟩

/-- No triangle of a strip is met by a segment that is clear of it. -/
lemma intersect?_of_isClear {test : SurfaceTest Float32} {traits : Traits}
    (hfinite : Scalar.isFinite test.tolerance = true)
    (hclear : (under ground segment).isClear test.tolerance segment = true)
    (hmem : tri ∈ (under ground segment).triangles) :
    test.intersect? (RayFrame.world segment traits) tri = none := by
  rw [Option.eq_none_iff_forall_not_mem]
  intro hit hhit
  obtain ⟨normal, hmeets⟩ := SurfaceTest.exists_meets hhit
  obtain ⟨⟨hpoint, ha, hb, hc⟩, hlow, hhigh⟩ := SurfaceTest.elevation_of_covers hmeets.covered
  obtain ⟨hlowest, hhighest⟩ := bounds_of_mem hmem ha hb hc
  have htolerance := IsFinite.of_isFinite hfinite
  simp only [isClear, Bool.or_eq_true, Bool.and_eq_true, decide_eq_true_eq] at hclear
  -- the point is no higher than the strip by more than the tolerance, but no lower than both ends;
  -- and the other way round for a segment below the strip
  rcases hclear with ⟨hnear, hfar⟩ | ⟨hnear, hfar⟩
  · obtain ⟨⟨habove, hnearNumber⟩, -⟩ := lt_iff.mp hnear
    have hupper := isNumber_add (le_iff.mp hhighest).1.1 htolerance
    have hle := le_trans_single (le_of_not_lt_single hupper hpoint hhigh)
      (add_le_add_single hupper habove hhighest (le_refl_single htolerance.1))
    rcases RayFrame.pointAt_between hpoint hmeets.inUnit hnearNumber (lt_iff.mp hfar).1.2 with h | h
    · exact not_lt_of_le_single (le_trans_single h.1 hle) hnear
    · exact not_lt_of_le_single (le_trans_single h.1 hle) hfar
  · obtain ⟨⟨hnearNumber, hbelow⟩, -⟩ := lt_iff.mp hnear
    rw [sub_eq_add_neg] at hbelow hnear hfar hlow
    have hlower := isNumber_add (le_iff.mp hlowest).1.2 htolerance.neg
    have hle := le_trans_single (add_le_add_single hbelow hlower hlowest
      (le_refl_single htolerance.neg.1)) (le_of_not_lt_single hpoint hlower hlow)
    rcases RayFrame.pointAt_between hpoint hmeets.inUnit hnearNumber (lt_iff.mp hfar).1.1 with h | h
    · exact not_lt_of_le_single (le_trans_single hle h.2) hfar
    · exact not_lt_of_le_single (le_trans_single hle h.2) hnear

/-- Nothing is met on a strip without triangles, or where no triangle is met. -/
lemma contacts_eq_nil {strip : GroundStrip} {test : SurfaceTest Float32}
    (h : ∀ tri ∈ strip.triangles,
      test.intersect? (RayFrame.world segment Family.terrain.traits) tri = none) :
    strip.contacts test segment = [] := by
  rw [contacts, List.filterMap_eq_nil_iff]
  intro tri hmem
  rw [h tri hmem]
  rfl

end GroundStrip

/-! ### What skipping changes -/

namespace Survey

/-- A survey answers what its triangles do, except perhaps for a segment out of reach, for which it
answers nothing. When the segment is clear of the strip by the tolerance, that is the answer of the
triangles too, since it meets none of them. -/
theorem run_contacts (test : SurfaceTest Float32) (ground : Heightmap Float32)
    (segment : Segment Float32) (hfinite : Scalar.isFinite test.tolerance = true) :
    let strip := GroundStrip.under ground segment
    let answer := (run test ground segment).contacts
    (strip.isOutOfReach segment = false → answer = strip.contacts test segment) ∧
    (strip.isOutOfReach segment = true → answer = []) ∧
    (strip.isClear test.tolerance segment = true → answer = strip.contacts test segment ∧
      ∀ tri ∈ strip.triangles,
        test.intersect? (RayFrame.world segment Family.terrain.traits) tri = none) := by
  intro strip answer
  have hanswer : answer = if strip.cells.isEmpty || strip.isOutOfReach segment then []
      else strip.contacts test segment := rfl
  have hempty : strip.cells.isEmpty = true → strip.contacts test segment = [] := by
    intro hcells
    rw [GroundStrip.contacts, GroundStrip.triangles_under, List.isEmpty_iff.mp hcells]
    rfl
  refine ⟨fun hreach => ?_, fun hreach => ?_, fun hclear => ?_⟩
  · rw [hanswer, hreach, Bool.or_false]
    split_ifs with hcells
    · exact (hempty hcells).symm
    · rfl
  · rw [hanswer, hreach, Bool.or_true, if_pos rfl]
  · have hnone : ∀ tri ∈ strip.triangles,
        test.intersect? (RayFrame.world segment Family.terrain.traits) tri = none :=
      fun _ hmem => GroundStrip.intersect?_of_isClear hfinite hclear hmem
    have hcontacts : strip.contacts test segment = [] := GroundStrip.contacts_eq_nil hnone
    refine ⟨?_, hnone⟩
    rw [hanswer, hcontacts, ite_self]

/-- A level ray above a rising strip, higher than all of it by more than the tolerance. -/
theorem run_contacts_above :
    let test := surfaceTest 1e-5 1e-3
    let ground : Heightmap Float32 := ⟨2, 2, #[0, 1, 0, 1], rfl⟩
    let segment : Segment Float32 := ⟨⟨0.5, 0.25, 1.5⟩, ⟨2, 0.25, 1.5⟩⟩
    let strip := GroundStrip.under ground segment
    (Scalar.isFinite test.tolerance = true ∧ strip.triangles.length = 2 ∧
      strip.isClear test.tolerance segment = true) ∧
    (run test ground segment).contacts = strip.contacts test segment := by
  intro test ground segment strip
  have hfinite : Scalar.isFinite test.tolerance = true := by decide +kernel
  have hclear : strip.isClear test.tolerance segment = true := by decide +kernel
  exact ⟨⟨hfinite, by decide +kernel, hclear⟩,
    ((run_contacts test ground segment hfinite).2.2 hclear).1⟩

/-- Two segments out of reach that meet a triangle all the same: one passes less than the tolerance
above the highest corner, the other stops just above level ground, which the rounded difference of
its ends does not show. -/
theorem run_skips_hits :
    let test := surfaceTest 1e-5 1e-3
    let slope : Heightmap Float32 := ⟨2, 2, #[0, 1, 0, 1], rfl⟩
    let grazing : Segment Float32 := ⟨⟨0.5, 0.25, 1.000005⟩, ⟨2, 0.25, 1.000005⟩⟩
    let level : Heightmap Float32 := Heightmap.flat 2 2 0
    let plunging : Segment Float32 := ⟨⟨0.5, 0.25, 1000000⟩, ⟨0.5, 0.25, 0.01⟩⟩
    (grazing.isFinite = true ∧ plunging.isFinite = true ∧
      (0 : Float32) < 1e-5 ∧ (0 : Float32) < 1e-3) ∧
    ((GroundStrip.under slope grazing).isOutOfReach grazing = true ∧
      (run test slope grazing).contacts.length = 0 ∧
      ((GroundStrip.under slope grazing).contacts test grazing).length = 1) ∧
    (GroundStrip.under level plunging).isOutOfReach plunging = true ∧
      (run test level plunging).contacts.length = 0 ∧
      ((GroundStrip.under level plunging).contacts test plunging).length = 1 := by
  decide +kernel

end Survey

end Sightline
