import Mathlib.Tactic
import Sightline.Proofs.Intersection.Exactness

/-!
# Where a segment enters a box

A line lies in a slab of a box during one stretch, and in the box during the intersection of three.
Going through the slabs one after the other keeps the stretch found so far, with the face crossed at
its beginning. So what is found in the end, over the real numbers, is the first point of the line in
the box, if there is a first one, and a face through which the line comes in there.
-/

namespace Sightline

attribute [local instance] Scalar.ofField
attribute [-instance] Scalar.toAdd Scalar.toSub Scalar.toMul Scalar.toDiv Scalar.toNeg Scalar.toLT
  Scalar.toLE Scalar.toBEq

open Vec3 OrientedBox

namespace OrientedBox

/-- The points of a box on its face at one side of an axis. -/
def face (b : OrientedBox ℝ) (axis : Axis) (side : ℝ) : Set (Vec3 ℝ) :=
  {p | p ∈ b.region ∧ (b.toLocal p).coord axis = side * b.halfExtents.coord axis}

lemma toLocal_sub (b : OrientedBox ℝ) (p q : Vec3 ℝ) :
    b.toLocal p - b.toLocal q = b.rotation.unapply (p - q) := by
  have hmoved : (p - b.center) - (q - b.center) = p - q := by
    simp only [sub_eq, sub_sub_sub_cancel_right]
  simp only [toLocal, Rotation.unapply, ← Rotation.apply_sub, hmoved]

end OrientedBox

namespace Culler

variable {tolerance : ℝ} {half start delta : Vec3 ℝ} {axis : Axis} {s d h t : ℝ}

/-! ### One slab -/

/-- The side of a slab through which a line that moves by `d` comes in. -/
noncomputable def sideOf (d : ℝ) : ℝ := if 0 < d then -1 else 1

lemma sideOf_mul_neg (hne : d ≠ 0) : sideOf d * d < 0 := by
  rw [sideOf]
  split_ifs with hpos
  · linarith
  · linarith [lt_of_le_of_ne (not_lt.mp hpos) hne]

lemma sideOf_cases (d : ℝ) : sideOf d = 1 ∨ sideOf d = -1 := by
  rw [sideOf]
  split_ifs
  · exact .inr rfl
  · exact .inl rfl

/-- A line that is not parallel to a slab lies in it from the face it comes in through to the
opposite one. -/
lemma abs_le_iff_of_ne (hne : d ≠ 0) :
    |s + d * t| ≤ h ↔ (sideOf d * h - s) / d ≤ t ∧ t ≤ (-sideOf d * h - s) / d := by
  rw [abs_le, sideOf]
  rcases lt_or_gt_of_ne hne with hneg | hpos
  · rw [if_neg hneg.not_gt, div_le_iff_of_neg hneg, le_div_iff_of_neg hneg]
    constructor <;> rintro ⟨hlow, hhigh⟩ <;> constructor <;> linarith
  · rw [if_pos hpos, div_le_iff₀ hpos, le_div_iff₀ hpos]
    constructor <;> rintro ⟨hlow, hhigh⟩ <;> constructor <;> linarith

/-- The parameters at which a line lies between two opposite faces. -/
def slab (half start delta : Vec3 ℝ) (axis : Axis) : Set ℝ :=
  {t | |start.coord axis + delta.coord axis * t| ≤ half.coord axis}

/-- Where a line comes into a slab. -/
noncomputable def wayIn (half start delta : Vec3 ℝ) (axis : Axis) : Crossing ℝ where
  t := (sideOf (delta.coord axis) * half.coord axis - start.coord axis) / delta.coord axis
  axis := axis
  side := sideOf (delta.coord axis)

/-- The parameter at which a line leaves a slab. -/
noncomputable def wayOut (half start delta : Vec3 ℝ) (axis : Axis) : ℝ :=
  (-sideOf (delta.coord axis) * half.coord axis - start.coord axis) / delta.coord axis

lemma slab_of_ne (hne : delta.coord axis ≠ 0) :
    slab half start delta axis =
      Set.Icc (wayIn half start delta axis).t (wayOut half start delta axis) :=
  Set.ext fun _ => abs_le_iff_of_ne hne

/-- A face is crossed from outside. -/
structure IsWayIn (half start delta : Vec3 ℝ) (crossing : Crossing ℝ) : Prop where
  side_cases : crossing.side = 1 ∨ crossing.side = -1
  /-- The line moves against the side. -/
  inward : crossing.side * delta.coord crossing.axis < 0
  /-- The line meets the face. -/
  met : start.coord crossing.axis + delta.coord crossing.axis * crossing.t =
    crossing.side * half.coord crossing.axis

lemma isWayIn_wayIn (hne : delta.coord axis ≠ 0) :
    IsWayIn half start delta (wayIn half start delta axis) where
  side_cases := sideOf_cases _
  inward := sideOf_mul_neg hne
  met := by
    simp only [wayIn]
    rw [mul_div_cancel₀ _ hne, add_sub_cancel]

/-- A slab is not left before it is entered: in the middle of it, both faces are on their sides. -/
lemma wayIn_le_wayOut (start : Vec3 ℝ) (hhalf : 0 ≤ half.coord axis) (hne : delta.coord axis ≠ 0) :
    (wayIn half start delta axis).t ≤ wayOut half start delta axis := by
  have hmiddle : |start.coord axis + delta.coord axis * (-start.coord axis / delta.coord axis)| ≤
      half.coord axis := by
    rwa [mul_div_cancel₀ _ hne, add_neg_cancel, abs_zero]
  obtain ⟨hin, hout⟩ := (abs_le_iff_of_ne hne).mp hmiddle
  exact hin.trans hout

/-! ### One step -/

lemma throughSlab_of_parallel (hparallel : |delta.coord axis| ≤ tolerance) (passage : Passage ℝ) :
    throughSlab tolerance half start delta passage axis =
      if half.coord axis < |start.coord axis| then none else some passage := if_pos hparallel

/-- The two faces of a slab, in the order in which they are crossed. -/
lemma ordered_faces (start : Vec3 ℝ) (hhalf : 0 ≤ half.coord axis) (hne : delta.coord axis ≠ 0) :
    let t1 := (-half.coord axis - start.coord axis) * (1 / delta.coord axis)
    let t2 := (half.coord axis - start.coord axis) * (1 / delta.coord axis)
    (if t1 < t2 then (t1, t2) else (t2, t1)) =
      ((wayIn half start delta axis).t, wayOut half start delta axis) := by
  intro t1 t2
  have hle := wayIn_le_wayOut start hhalf hne
  rcases lt_or_gt_of_ne hne with hneg | hpos
  · have hin : (wayIn half start delta axis).t = t2 := by
      simp only [wayIn, sideOf, if_neg hneg.not_gt, one_mul, t2, mul_one_div]
    have hout : wayOut half start delta axis = t1 := by
      simp only [wayOut, sideOf, if_neg hneg.not_gt, neg_one_mul, t1, mul_one_div]
    rw [hin, hout] at hle ⊢
    exact if_neg hle.not_gt
  · have hin : (wayIn half start delta axis).t = t1 := by
      simp only [wayIn, sideOf, if_pos hpos, neg_one_mul, t1, mul_one_div]
    have hout : wayOut half start delta axis = t2 := by
      simp only [wayOut, sideOf, if_pos hpos, neg_neg, one_mul, t2, mul_one_div]
    rw [hin, hout] at hle ⊢
    split_ifs with hlt
    · rfl
    · rw [le_antisymm hle (not_lt.mp hlt)]

/-- The first slab that is crossed sets both bounds. -/
lemma throughSlab_first (hhalf : 0 ≤ half.coord axis) (htolerance : 0 ≤ tolerance)
    (hclear : tolerance < |delta.coord axis|) :
    throughSlab tolerance half start delta {} axis =
      some ⟨some (wayIn half start delta axis), some (wayOut half start delta axis)⟩ := by
  have hne : delta.coord axis ≠ 0 := abs_pos.mp (htolerance.trans_lt hclear)
  have hfaces := ordered_faces start hhalf hne
  have hparallel : ¬ Scalar.abs (delta.coord axis) ≤ tolerance := not_le.mpr hclear
  rw [throughSlab, if_neg hparallel]
  simp only [Scalar.one_field, Scalar.zero_field, hfaces, Scalar.isDefined_field, if_true]
  exact if_neg (wayIn_le_wayOut start hhalf hne).not_gt

/-- A slab that is crossed later moves the bounds together. -/
lemma throughSlab_later (hhalf : 0 ≤ half.coord axis) (htolerance : 0 ≤ tolerance)
    (hclear : tolerance < |delta.coord axis|) (crossing : Crossing ℝ) (exit : ℝ) :
    throughSlab tolerance half start delta ⟨some crossing, some exit⟩ axis =
      let entry := if crossing.t < (wayIn half start delta axis).t
        then wayIn half start delta axis else crossing
      let exit := min exit (wayOut half start delta axis)
      if exit < entry.t then none else some ⟨some entry, some exit⟩ := by
  have hne : delta.coord axis ≠ 0 := abs_pos.mp (htolerance.trans_lt hclear)
  have hfaces := ordered_faces start hhalf hne
  have hparallel : ¬ Scalar.abs (delta.coord axis) ≤ tolerance := not_le.mpr hclear
  rw [throughSlab, if_neg hparallel]
  simp only [Scalar.one_field, Scalar.zero_field, hfaces, decide_eq_true_eq, Scalar.min_field]
  by_cases hlater : crossing.t < (wayIn half start delta axis).t
  · simp only [if_pos hlater]
    rfl
  · simp only [if_neg hlater]

/-! ### The stretch of a line in several slabs -/

/-- A passage tells the parameters at which a line is inside the slabs looked at; none tells that
there are none. -/
inductive Tells (half start delta : Vec3 ℝ) : Option (Passage ℝ) → Set ℝ → Prop where
  | missed : Tells half start delta none ∅
  | unbounded : Tells half start delta (some {}) Set.univ
  | between {crossing : Crossing ℝ} {exit : ℝ} : IsWayIn half start delta crossing →
    crossing.t ≤ exit →
    Tells half start delta (some ⟨some crossing, some exit⟩) (Set.Icc crossing.t exit)

variable {passage : Passage ℝ} {inside : Set ℝ}

/-- One more slab is taken into account. -/
lemma Tells.throughSlab (h : Tells half start delta (some passage) inside)
    (hhalf : 0 ≤ half.coord axis) (htolerance : 0 ≤ tolerance)
    (hclear : delta.coord axis = 0 ∨ tolerance < |delta.coord axis|) :
    Tells half start delta (throughSlab tolerance half start delta passage axis)
      (inside ∩ slab half start delta axis) := by
  rcases hclear with hzero | hclear
  · -- a line that does not move across a slab is inside it always or never
    have hslab : slab half start delta axis = {t | |start.coord axis| ≤ half.coord axis} := by
      simp only [slab, hzero, zero_mul, add_zero]
    have hparallel : |delta.coord axis| ≤ tolerance := by rwa [hzero, abs_zero]
    rw [throughSlab_of_parallel hparallel, hslab]
    split_ifs with hout
    · have hnever : inside ∩ {t | |start.coord axis| ≤ half.coord axis} = ∅ :=
        Set.eq_empty_of_forall_notMem fun _ ht => not_le.mpr hout ht.2
      rw [hnever]
      exact .missed
    · have halways : inside ∩ {t | |start.coord axis| ≤ half.coord axis} = inside :=
        Set.inter_eq_left.mpr fun _ _ => not_lt.mp hout
      rwa [halways]
  · have hne : delta.coord axis ≠ 0 := abs_pos.mp (htolerance.trans_lt hclear)
    rw [slab_of_ne hne]
    cases h with
    | unbounded =>
      rw [throughSlab_first hhalf htolerance hclear, Set.univ_inter]
      exact .between (isWayIn_wayIn hne) (wayIn_le_wayOut start hhalf hne)
    | @between crossing exit hwayIn hle =>
      rw [throughSlab_later hhalf htolerance hclear, Set.Icc_inter_Icc]
      set entry := if crossing.t < (wayIn half start delta axis).t
        then wayIn half start delta axis else crossing with hentry
      have hmax : crossing.t ⊔ (wayIn half start delta axis).t = entry.t := by
        rw [hentry, max_def_lt, apply_ite Crossing.t]
      have hentered : IsWayIn half start delta entry := by
        rw [hentry]
        split_ifs
        · exact isWayIn_wayIn hne
        · exact hwayIn
      rw [hmax]
      show Tells half start delta (if exit ⊓ wayOut half start delta axis < entry.t then none
        else some ⟨some entry, some (exit ⊓ wayOut half start delta axis)⟩) _
      split_ifs with hleft
      · rw [Set.Icc_eq_empty hleft.not_ge]
        exact .missed
      · exact .between hentered (not_lt.mp hleft)

/-- Where nothing is left of a line, no slab changes that. -/
lemma Tells.bind {result : Option (Passage ℝ)} (h : Tells half start delta result inside)
    (hhalf : 0 ≤ half.coord axis) (htolerance : 0 ≤ tolerance)
    (hclear : delta.coord axis = 0 ∨ tolerance < |delta.coord axis|) :
    Tells half start delta (result.bind (Culler.throughSlab tolerance half start delta · axis))
      (inside ∩ slab half start delta axis) := by
  cases result with
  | none =>
    cases h
    rw [Set.empty_inter]
    exact .missed
  | some passage => exact h.throughSlab hhalf htolerance hclear

/-- All slabs are taken into account. The induction is over the slabs still to come. -/
lemma Tells.foldlM {result : Option (Passage ℝ)} (axes : List Axis)
    (h : Tells half start delta result inside) (hhalf : ∀ axis, 0 ≤ half.coord axis)
    (htolerance : 0 ≤ tolerance)
    (hclear : ∀ axis, delta.coord axis = 0 ∨ tolerance < |delta.coord axis|) :
    Tells half start delta
      (result.bind (axes.foldlM (Culler.throughSlab tolerance half start delta)))
      (inside ∩ {t | ∀ axis ∈ axes, t ∈ slab half start delta axis}) := by
  induction axes generalizing result inside with
  | nil =>
    have hresult : result.bind ([].foldlM (Culler.throughSlab tolerance half start delta)) =
        result := Option.bind_fun_some result
    have hinside : inside ∩ {t | ∀ axis ∈ ([] : List Axis), t ∈ slab half start delta axis} =
        inside := Set.inter_eq_left.mpr fun _ _ _ hnone => absurd hnone List.not_mem_nil
    rwa [hresult, hinside]
  | cons axis axes ih =>
    have hresult :
        result.bind ((axis :: axes).foldlM (Culler.throughSlab tolerance half start delta)) =
          (result.bind (Culler.throughSlab tolerance half start delta · axis)).bind
            (axes.foldlM (Culler.throughSlab tolerance half start delta)) :=
      (Option.bind_assoc _ _ _).symm
    have hinside : inside ∩ {t | ∀ a ∈ axis :: axes, t ∈ slab half start delta a} =
        inside ∩ slab half start delta axis ∩ {t | ∀ a ∈ axes, t ∈ slab half start delta a} := by
      ext t
      simp only [Set.mem_inter_iff, Set.mem_ofPred_eq, List.forall_mem_cons, and_assoc]
    rw [hresult, hinside]
    exact ih (h.bind (hhalf axis) htolerance (hclear axis))

/-- The first parameter inside the slabs is the one of the crossing that is told. -/
lemma Tells.isLeast_iff {result : Option (Passage ℝ)} (h : Tells half start delta result inside) :
    IsLeast inside t ↔ ∃ crossing, result.bind Passage.entry = some crossing ∧ crossing.t = t := by
  cases h with
  | missed => simp [IsLeast]
  | unbounded => simp [IsLeast]
  | @between crossing exit hwayIn hle =>
    have hleast : IsLeast (Set.Icc crossing.t exit) crossing.t := isLeast_Icc hle
    simp [hleast.isLeast_iff_eq]

lemma Tells.isWayIn {result : Option (Passage ℝ)} (h : Tells half start delta result inside)
    {crossing : Crossing ℝ} (hentry : result.bind Passage.entry = some crossing) :
    IsWayIn half start delta crossing := by
  cases h with
  | missed => cases hentry
  | unbounded => cases hentry
  | between hwayIn => exact Option.some.inj hentry ▸ hwayIn

/-! ### The face a segment enters through -/

lemma entryFace?_eq_some_iff {crossing : Crossing ℝ} :
    entryFace? tolerance half start delta = some crossing ↔
      (Axis.all.foldlM (throughSlab tolerance half start delta) {}).bind Passage.entry =
        some crossing ∧ 0 ≤ crossing.t ∧ crossing.t ≤ 1 := by
  rw [← Scalar.inUnit_field, entryFace?]
  cases Axis.all.foldlM (throughSlab tolerance half start delta) {} with
  | none => simp
  | some passage =>
    cases hentry : passage.entry with
    | none => simp [hentry]
    | some found =>
      by_cases hunit : Scalar.inUnit found.t = true
      · simp only [Option.bind_eq_bind, Option.bind_some, hentry, guard, if_pos hunit, Option.pure_def,
          Option.some.injEq]
        constructor
        · rintro rfl
          exact ⟨rfl, hunit⟩
        · exact fun h => h.1
      · simp only [Option.bind_eq_bind, Option.bind_some, hentry, guard, if_neg hunit, failure,
          Option.bind_none, reduceCtorEq, Option.some.injEq, false_iff]
        rintro ⟨rfl, hinside⟩
        exact hunit hinside

section Entering

variable (hhalf : ∀ axis, 0 ≤ half.coord axis) (htolerance : 0 ≤ tolerance)
  (hclear : ∀ axis, delta.coord axis = 0 ∨ tolerance < |delta.coord axis|)
include hhalf htolerance hclear

/-- What the slabs of a box tell about a line. -/
lemma tells_box (start : Vec3 ℝ) : Tells half start delta
    (Axis.all.foldlM (throughSlab tolerance half start delta) {})
    {t | Fits half (start + delta * t)} := by
  have hfits : {t | Fits half (start + delta * t)} =
      Set.univ ∩ {t | ∀ axis ∈ Axis.all, t ∈ slab half start delta axis} := by
    ext t
    simp only [Set.mem_ofPred_eq, Set.univ_inter, Axis.mem_all, true_implies, Fits, coord_add,
      coord_smul, slab]
  rw [hfits]
  exact Tells.unbounded.foldlM Axis.all hhalf htolerance hclear

/-- A face is found exactly when the line comes into the box between the ends of the segment. -/
lemma exists_entryFace_iff :
    (∃ crossing, entryFace? tolerance half start delta = some crossing) ↔
      ∃ t : ℝ, IsLeast {t | Fits half (start + delta * t)} t ∧ 0 ≤ t ∧ t ≤ 1 := by
  simp only [entryFace?_eq_some_iff, (tells_box hhalf htolerance hclear start).isLeast_iff]
  constructor
  · rintro ⟨crossing, hentry, hunit⟩
    exact ⟨crossing.t, ⟨crossing, hentry, rfl⟩, hunit⟩
  · rintro ⟨_, ⟨crossing, hentry, rfl⟩, hunit⟩
    exact ⟨crossing, hentry, hunit⟩

/-- A face that is found is crossed where the line comes into the box. -/
lemma isLeast_of_entryFace? {crossing : Crossing ℝ}
    (h : entryFace? tolerance half start delta = some crossing) :
    IsLeast {t | Fits half (start + delta * t)} crossing.t ∧ IsWayIn half start delta crossing := by
  have hentry := (entryFace?_eq_some_iff.mp h).1
  have htells := tells_box hhalf htolerance hclear start
  exact ⟨htells.isLeast_iff.mpr ⟨crossing, hentry, rfl⟩, htells.isWayIn hentry⟩

end Entering

/-! ### Contacts -/

/-- A contact is the one of a segment that comes into a box at a parameter. -/
structure IsEntry (segment : Segment ℝ) (box : OrientedBox ℝ) (t : ℝ) (contact : Contact ℝ) :
    Prop where
  /-- The position is the one at the parameter. -/
  position_eq : contact.position = segment.pointAt t
  /-- The depth is the part of the length up to the parameter. -/
  depth_eq : contact.depth = t * segment.length
  /-- The position is on a face, and the normal points out of it. -/
  on_face : ∃ axis side, (side = 1 ∨ side = -1) ∧ contact.position ∈ box.face axis side ∧
    contact.normal = box.rotation.apply (along side axis)
  /-- The segment moves against the normal. -/
  facing : contact.normal.dot segment.delta < 0

section Deciding

variable {c : Culler ℝ} {segment : Segment ℝ} {box : OrientedBox ℝ} {subject : EntityId}

lemma entryContact?_eq_map : c.entryContact? segment box subject =
    (entryFace? c.tolerance box.halfExtents (box.toLocal segment.start)
      (box.toLocal segment.stop - box.toLocal segment.start)).map fun crossing =>
        { subject := subject
          depth := (segment.pointAt crossing.t - segment.start).norm
          normal := box.rotation.apply (along crossing.side crossing.axis)
          position := segment.pointAt crossing.t } := by
  rw [Option.map_eq_bind]
  rfl

/-- The parameters at which a segment is in a box. -/
lemma setOf_mem_region (hunit : box.rotation.IsUnit) :
    {t | segment.pointAt t ∈ box.region} = {t | Fits box.halfExtents
      (box.toLocal segment.start + (box.toLocal segment.stop - box.toLocal segment.start) * t)} := by
  ext t
  rw [Set.mem_ofPred_eq, mem_region_iff hunit, toLocal_pointAt, Set.mem_ofPred_eq]

/-- What a face that is found says about the segment in the world. -/
lemma isEntry_of_isWayIn (hunit : box.rotation.IsUnit) {crossing : Crossing ℝ}
    (hstart : 0 ≤ crossing.t) (hmem : segment.pointAt crossing.t ∈ box.region)
    (h : IsWayIn box.halfExtents (box.toLocal segment.start)
      (box.toLocal segment.stop - box.toLocal segment.start) crossing) :
    IsEntry segment box crossing.t
      { subject := subject
        depth := (segment.pointAt crossing.t - segment.start).norm
        normal := box.rotation.apply (along crossing.side crossing.axis)
        position := segment.pointAt crossing.t } where
  position_eq := rfl
  depth_eq := by
    have hmoved : segment.pointAt crossing.t - segment.start = segment.delta * crossing.t := by
      simp only [Segment.pointAt, add_eq, sub_eq, smul_eq, add_sub_cancel_left]
    rw [hmoved, norm_smul, abs_of_nonneg hstart, mul_comm, Segment.length]
  on_face := by
    refine ⟨crossing.axis, crossing.side, h.side_cases, ⟨hmem, ?_⟩, rfl⟩
    rw [toLocal_pointAt, coord_add, coord_smul]
    exact h.met
  facing := by
    rw [Rotation.apply_dot _ _ hunit, along_dot, Segment.delta, ← toLocal_sub]
    exact h.inward

variable (hunit : box.rotation.IsUnit) (hhalf : ∀ axis, 0 ≤ box.halfExtents.coord axis)
  (htolerance : 0 ≤ c.tolerance) (hclear : IsClear c.tolerance segment box)
include hunit hhalf htolerance hclear

lemma exists_entryContact_iff (subject : EntityId) :
    (∃ contact, c.entryContact? segment box subject = some contact) ↔
      ∃ t : ℝ, IsLeast {t | segment.pointAt t ∈ box.region} t ∧ 0 ≤ t ∧ t ≤ 1 := by
  rw [setOf_mem_region hunit, ← exists_entryFace_iff hhalf htolerance hclear, entryContact?_eq_map]
  constructor
  · rintro ⟨contact, hcontact⟩
    obtain ⟨crossing, hcrossing, -⟩ := Option.map_eq_some_iff.mp hcontact
    exact ⟨crossing, hcrossing⟩
  · rintro ⟨crossing, hcrossing⟩
    exact ⟨_, Option.map_eq_some_iff.mpr ⟨crossing, hcrossing, rfl⟩⟩

lemma isEntry_of_entryContact? {contact : Contact ℝ}
    (h : c.entryContact? segment box subject = some contact) :
    ∃ t : ℝ, IsLeast {t | segment.pointAt t ∈ box.region} t ∧ (0 ≤ t ∧ t ≤ 1) ∧
      contact.subject = subject ∧ IsEntry segment box t contact := by
  rw [entryContact?_eq_map, Option.map_eq_some_iff] at h
  obtain ⟨crossing, hcrossing, rfl⟩ := h
  obtain ⟨hleast, hwayIn⟩ := isLeast_of_entryFace? hhalf htolerance hclear hcrossing
  have hbounds := (entryFace?_eq_some_iff.mp hcrossing).2
  rw [← setOf_mem_region hunit] at hleast
  exact ⟨crossing.t, hleast, hbounds, rfl, isEntry_of_isWayIn hunit hbounds.1 hleast.1 hwayIn⟩

/-- A segment that starts within a box, and not on its surface, does not come into it. -/
lemma entryContact?_of_within
    (hwithin : ∀ axis, |(box.toLocal segment.start).coord axis| < box.halfExtents.coord axis) :
    c.entryContact? segment box subject = none := by
  by_contra hsome
  obtain ⟨contact, hcontact⟩ := Option.ne_none_iff_exists'.mp hsome
  obtain ⟨t, hleast, hbounds, -, hentry⟩ :=
    isEntry_of_entryContact? hunit hhalf htolerance hclear hcontact
  have hstart : segment.pointAt 0 ∈ box.region := by
    rw [Segment.pointAt_zero, mem_region_iff hunit]
    exact fun axis => (hwithin axis).le
  obtain rfl : t = 0 := le_antisymm (hleast.2 hstart) hbounds.1
  obtain ⟨axis, side, hside, ⟨-, hface⟩, -⟩ := hentry.on_face
  rw [hentry.position_eq, Segment.pointAt_zero] at hface
  have hsurface : |(box.toLocal segment.start).coord axis| = box.halfExtents.coord axis := by
    rcases hside with rfl | rfl
    · rw [hface, one_mul, abs_of_nonneg (hhalf axis)]
    · rw [hface, neg_one_mul, abs_neg, abs_of_nonneg (hhalf axis)]
  exact absurd hsurface (hwithin axis).ne

end Deciding

/-- A contact is found exactly when the line of a segment has a first point in the box, and that is on
the segment; then it tells about that point. There is none when the segment misses the box, starts
within it or stops short of it. -/
theorem entry_isFirst (c : Culler ℝ) (segment : Segment ℝ) (box : OrientedBox ℝ)
    (subject : EntityId) (hunit : box.rotation.IsUnit)
    (hhalf : ∀ axis, 0 ≤ box.halfExtents.coord axis) (htolerance : 0 ≤ c.tolerance)
    (hclear : IsClear c.tolerance segment box) :
    ((∃ contact, c.entryContact? segment box subject = some contact) ↔
      ∃ t : ℝ, IsLeast {t | segment.pointAt t ∈ box.region} t ∧ 0 ≤ t ∧ t ≤ 1) ∧
    (∀ contact, c.entryContact? segment box subject = some contact →
      ∃ t : ℝ, IsLeast {t | segment.pointAt t ∈ box.region} t ∧ (0 ≤ t ∧ t ≤ 1) ∧
        contact.subject = subject ∧ IsEntry segment box t contact) ∧
    (¬ segment.Meets box.region ∨
        (∀ axis, |(box.toLocal segment.start).coord axis| < box.halfExtents.coord axis) →
      c.entryContact? segment box subject = none) := by
  have hfound := exists_entryContact_iff hunit hhalf htolerance hclear subject
  refine ⟨hfound, fun _ h => isEntry_of_entryContact? hunit hhalf htolerance hclear h, ?_⟩
  rintro (hmiss | hwithin)
  · by_contra hsome
    obtain ⟨t, hleast, hbounds⟩ := hfound.mp (Option.ne_none_iff_exists'.mp hsome)
    exact hmiss ⟨t, hbounds, hleast.1⟩
  · exact entryContact?_of_within hunit hhalf htolerance hclear hwithin

/-- A turned box without thickness, which a slanted segment comes into at its rim, halfway. -/
theorem entry_isFirst_rim :
    let c : Culler ℝ := ⟨1 / 100, ⟨1, 1, 1⟩⟩
    let segment : Segment ℝ := ⟨⟨-1, 1 / 2, 1 / 2⟩, ⟨1, 3 / 2, 1 / 2⟩⟩
    let box : OrientedBox ℝ := ⟨⟨0, 0, 0⟩, ⟨⟨1 / 2, 1 / 2, 1 / 2⟩, 1 / 2⟩, ⟨1, 2, 0⟩⟩
    (box.rotation.IsUnit ∧ (∀ axis, 0 ≤ box.halfExtents.coord axis) ∧ 0 ≤ c.tolerance ∧
      IsClear c.tolerance segment box) ∧
    ∃ contact, c.entryContact? segment box ⟨7⟩ = some contact ∧ contact.subject = ⟨7⟩ ∧
      IsEntry segment box (1 / 2) contact := by
  intro c segment box
  have hunit : box.rotation.IsUnit := by norm_num [Rotation.IsUnit, dot_eq, box]
  have hhalf (axis : Axis) : 0 ≤ box.halfExtents.coord axis := by
    cases axis <;> norm_num [coord, box]
  have htolerance : 0 ≤ c.tolerance := by norm_num [c]
  have hturned (p : Vec3 ℝ) : box.toLocal p = ⟨p.y, p.z, p.x⟩ := by
    simp only [toLocal, Rotation.unapply, Rotation.conjugate, Rotation.apply_eq, sub_eq, neg_eq,
      cross_eq, smul_eq, add_eq, box, Vec3.mk.injEq]
    refine ⟨?_, ?_, ?_⟩ <;> ring
  have hclear : IsClear c.tolerance segment box := by
    intro axis
    rw [hturned, hturned]
    cases axis <;> norm_num [coord, sub_eq, segment, c]
  have hpoint (t : ℝ) : box.toLocal (segment.pointAt t) = ⟨1 / 2 + t, 1 / 2, -1 + 2 * t⟩ := by
    simp only [hturned, Segment.pointAt, Segment.delta, add_eq, sub_eq, smul_eq, segment,
      Vec3.mk.injEq]
    refine ⟨?_, ?_, ?_⟩ <;> ring
  -- the box has no thickness along the axis in which the line moves from -1 to 1
  have hleast : IsLeast {t | segment.pointAt t ∈ box.region} (1 / 2) := by
    constructor
    · rw [Set.mem_ofPred_eq, mem_region_iff hunit, hpoint]
      intro axis
      cases axis <;> norm_num [coord, box]
    · intro t ht
      rw [Set.mem_ofPred_eq, mem_region_iff hunit, hpoint] at ht
      have hflat : |-1 + 2 * t| ≤ 0 := ht .z
      linarith [abs_nonpos_iff.mp hflat]
  obtain ⟨hfound, hentry, -⟩ :=
    entry_isFirst c segment box ⟨7⟩ hunit hhalf htolerance hclear
  obtain ⟨contact, hcontact⟩ := hfound.mpr ⟨1 / 2, hleast, by norm_num, by norm_num⟩
  obtain ⟨t, hleast', -, hsubject, hcontactEntry⟩ := hentry contact hcontact
  obtain rfl : t = 1 / 2 := hleast'.unique hleast
  exact ⟨⟨hunit, hhalf, htolerance, hclear⟩, contact, hcontact, hsubject, hcontactEntry⟩

end Culler

end Sightline
