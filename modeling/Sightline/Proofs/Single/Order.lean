import Mathlib.Analysis.SpecialFunctions.Sqrt
import Mathlib.Tactic
import Sightline.Proofs.Single.Operations

/-!
# Order and operations

Rounding keeps the order of exact results, so the operations on singles keep the order of their
operands wherever exact arithmetic does, infinities included. What is no number is never the operand
of a number.
-/

namespace Sightline

namespace Single

open Float.Model (Format UnpackedFloat)
open Float.Model.UnpackedFloat

variable {a b c d : Float32}

/-! ### Finite numbers and infinities -/

/-- The single is a finite number. -/
def IsFinite (a : Float32) : Prop := IsNumber a ∧ (units a).natAbs < reach

lemma IsFinite.bounded (ha : IsFinite a) : Bounded a.toModel.unpack :=
  .of_canonical (canonical a) ha.1 ha.2

/-- A number is finite or an infinity. -/
lemma IsNumber.cases (ha : IsNumber a) : IsFinite a ∨ ∃ s, a.toModel.unpack = .infinity s := by
  have hcanonical := canonical a
  rw [IsFinite, and_iff_right ha, units]
  rw [IsNumber] at ha
  cases hunpacked : a.toModel.unpack with
  | notANumber => exact absurd hunpacked ha
  | infinity s => exact .inr ⟨s, rfl⟩
  | zero s => exact .inl reach_pos
  | finite s m e hm =>
    rw [hunpacked] at hcanonical
    refine .inl ?_
    rw [unitsOf, natAbs_apply]
    exact magnitude_lt_reach hcanonical.1 hcanonical.2.2.1

lemma IsFinite.of_isFinite (h : Scalar.isFinite a = true) : IsFinite a := by
  rcases (isNumber_of_isFinite h).cases with hfinite | ⟨s, hs⟩
  · exact hfinite
  · have hunpacked : a.toModel.unpack.isFinite = true := h
    rw [hs] at hunpacked
    exact absurd hunpacked (by simp [UnpackedFloat.isFinite])

lemma units_of_infinity {s : Sign} (ha : a.toModel.unpack = .infinity s) :
    units a = s.apply (reach : ℤ) := by
  rw [units, ha]
  rfl

lemma natAbs_units_le (ha : IsNumber a) : (units a).natAbs ≤ reach := by
  rcases ha.cases with hfinite | ⟨s, hs⟩
  · exact hfinite.2.le
  · rw [units_of_infinity hs, natAbs_apply]

lemma infinity_of_reach_le (ha : IsNumber a) (h : (reach : ℤ) ≤ units a) :
    a.toModel.unpack = .infinity .positive := by
  have hreach := reach_pos
  rcases ha.cases with hfinite | ⟨s, hs⟩
  · have := hfinite.2
    omega
  · cases s with
    | negative =>
      rw [units_of_infinity hs, Sign.apply] at h
      omega
    | positive => exact hs

lemma infinity_of_le_neg_reach (ha : IsNumber a) (h : units a ≤ -(reach : ℤ)) :
    a.toModel.unpack = .infinity .negative := by
  have hreach := reach_pos
  rcases ha.cases with hfinite | ⟨s, hs⟩
  · have := hfinite.2
    omega
  · cases s with
    | negative => exact hs
    | positive =>
      rw [units_of_infinity hs, Sign.apply] at h
      omega

/-! ### What is no number -/

lemma not_isNumber_of_pack (ha : a.toModel = Float32.Model.pack .notANumber) : ¬ IsNumber a := by
  rw [IsNumber, ha]
  exact not_not.mpr rfl

/-- An operation that is no number where one operand is none gives a number of numbers only. -/
lemma isNumber_operands {f : UnpackedFloat → UnpackedFloat → UnpackedFloat}
    (hleft : ∀ v, f .notANumber v = .notANumber) (hright : ∀ u, f u .notANumber = .notANumber)
    (hc : c.toModel = Float32.Model.pack (f a.toModel.unpack b.toModel.unpack))
    (h : IsNumber c) : IsNumber a ∧ IsNumber b := by
  constructor
  · intro ha
    rw [ha, hleft] at hc
    exact not_isNumber_of_pack hc h
  · intro hb
    rw [hb, hright] at hc
    exact not_isNumber_of_pack hc h

lemma IsNumber.of_add (h : IsNumber (a + b)) : IsNumber a ∧ IsNumber b :=
  isNumber_operands (f := UnpackedFloat.add Format.binary32) (fun _ => rfl)
    (fun u => by cases u <;> rfl) rfl h

lemma IsNumber.of_sub (h : IsNumber (a - b)) : IsNumber a ∧ IsNumber b :=
  isNumber_operands (f := UnpackedFloat.sub Format.binary32) (fun _ => rfl)
    (fun u => by cases u <;> rfl) rfl h

lemma IsNumber.of_mul (h : IsNumber (a * b)) : IsNumber a ∧ IsNumber b :=
  isNumber_operands (f := UnpackedFloat.mul Format.binary32) (fun _ => rfl)
    (fun u => by cases u <;> rfl) rfl h

lemma IsNumber.of_div (h : IsNumber (a / b)) : IsNumber a ∧ IsNumber b :=
  isNumber_operands (f := UnpackedFloat.div Format.binary32) (fun _ => rfl)
    (fun u => by cases u <;> rfl) rfl h

/-! ### Results before they are stored -/

lemma toModel_add (a b : Float32) : (a + b).toModel = Float32.Model.pack
    (UnpackedFloat.add Format.binary32 a.toModel.unpack b.toModel.unpack) := rfl

lemma toModel_mul (a b : Float32) : (a * b).toModel = Float32.Model.pack
    (UnpackedFloat.mul Format.binary32 a.toModel.unpack b.toModel.unpack) := rfl

lemma toModel_sqrt (a : Float32) : a.sqrt.toModel = Float32.Model.pack
    (UnpackedFloat.sqrt Format.binary32 a.toModel.unpack) := rfl

/-! ### Finite operands -/

lemma add_finite (ha : IsFinite a) (hb : IsFinite b) :
    IsNumber (a + b) ∧ units (a + b) = roundedSigned ((units a + units b : ℤ)) :=
  (yields_add ha.bounded hb.bounded).of_pack (toModel_add a b)

lemma mul_finite (ha : IsFinite a) (hb : IsFinite b) :
    IsNumber (a * b) ∧ units (a * b) = roundedSigned ((units a * units b : ℤ) / one) :=
  (yields_mul ha.bounded hb.bounded).of_pack (toModel_mul a b)

lemma sqrt_finite (ha : IsFinite a) (hnonneg : 0 ≤ units a) :
    IsNumber a.sqrt ∧ units a.sqrt = roundedSigned √(units a * one) :=
  (yields_sqrt ha.bounded hnonneg).of_pack (toModel_sqrt a)

lemma IsFinite.roundedSigned_units (ha : IsFinite a) : roundedSigned (units a) = units a :=
  ha.bounded.roundedSigned_units

/-! ### Comparing -/

lemma units_zero : units (0 : Float32) = 0 := rfl

lemma isNumber_zero : IsNumber (0 : Float32) := fun h => by cases h

lemma isNumber_infinity : IsNumber infinity := fun h => by cases h

lemma le_of_units (ha : IsNumber a) (hb : IsNumber b) (h : units a ≤ units b) : a ≤ b :=
  le_iff.mpr ⟨⟨ha, hb⟩, h⟩

lemma le_refl_single (ha : IsNumber a) : a ≤ a := le_of_units ha ha le_rfl

lemma le_trans_single (hab : a ≤ b) (hbc : b ≤ c) : a ≤ c := by
  rw [le_iff] at hab hbc ⊢
  exact ⟨⟨hab.1.1, hbc.1.2⟩, hab.2.trans hbc.2⟩

lemma lt_of_le_of_lt_single (hab : a ≤ b) (hbc : b < c) : a < c := by
  rw [le_iff] at hab
  rw [lt_iff] at hbc ⊢
  exact ⟨⟨hab.1.1, hbc.1.2⟩, hab.2.trans_lt hbc.2⟩

lemma lt_of_lt_of_le_single (hab : a < b) (hbc : b ≤ c) : a < c := by
  rw [lt_iff] at hab ⊢
  rw [le_iff] at hbc
  exact ⟨⟨hab.1.1, hbc.1.2⟩, hab.2.trans_le hbc.2⟩

lemma le_of_not_lt_single (ha : IsNumber a) (hb : IsNumber b) (h : ¬ a < b) : b ≤ a := by
  rw [lt_iff, and_iff_right ⟨ha, hb⟩, not_lt] at h
  exact le_of_units hb ha h

lemma not_lt_of_le_single (h : a ≤ b) : ¬ b < a := fun hlt =>
  ((lt_iff.mp hlt).2.trans_le (le_iff.mp h).2).false

lemma zero_le_iff : 0 ≤ a ↔ IsNumber a ∧ 0 ≤ units a := by
  rw [le_iff, and_iff_right isNumber_zero, units_zero]

lemma roundedSigned_zero : roundedSigned 0 = 0 := by
  rw [roundedSigned_of_nonneg le_rfl, rounded_zero]
  rfl

lemma roundedSigned_nonneg {x : ℝ} (hx : 0 ≤ x) : 0 ≤ roundedSigned x := by
  rw [roundedSigned_of_nonneg hx]
  exact Int.natCast_nonneg _

lemma roundedSigned_nonpos {x : ℝ} (hx : x ≤ 0) : roundedSigned x ≤ 0 :=
  (roundedSigned_mono hx).trans_eq roundedSigned_zero

/-! ### Opposites -/

lemma canonical_neg {u : UnpackedFloat} (hu : Canonical u) : Canonical u.neg := by
  cases u with
  | finite s m e hm => exact hu
  | _ => trivial

lemma apply_neg (s : Sign) (z : ℤ) : (-s).apply z = -s.apply z := by
  cases s with
  | negative => exact (neg_neg z).symm
  | positive => rfl

lemma unitsOf_neg (u : UnpackedFloat) : unitsOf u.neg = -unitsOf u := by
  cases u with
  | notANumber => rfl
  | infinity s => exact apply_neg s _
  | zero s => rfl
  | finite s m e hm => exact apply_neg s _

lemma unpack_neg (a : Float32) : (-a).toModel.unpack = a.toModel.unpack.neg :=
  unpack_pack (canonical_neg (canonical a))

lemma units_neg (a : Float32) : units (-a) = -units a := by
  rw [units, unpack_neg, unitsOf_neg, units]

lemma isNumber_neg : IsNumber (-a) ↔ IsNumber a := by
  rw [IsNumber, unpack_neg, IsNumber]
  cases a.toModel.unpack <;> simp [UnpackedFloat.neg]

lemma sub_unpacked (f : Format) (u v : UnpackedFloat) :
    UnpackedFloat.sub f u v = UnpackedFloat.add f u v.neg := by
  have hdiff {s s' : Sign} (m n : ℕ) : s.apply (m : ℤ) - s'.apply (n : ℤ) =
      s.apply (m : ℤ) + (-s').apply (n : ℤ) := by
    rw [apply_neg, sub_eq_add_neg]
  cases u <;> cases v <;> try rfl
  simp only [UnpackedFloat.sub, UnpackedFloat.add, UnpackedFloat.neg, hdiff]

/-- Taking away is adding the opposite. -/
lemma sub_eq_add_neg (a b : Float32) : a - b = a + -b := by
  have hmodel : (a - b).toModel = (a + -b).toModel := by
    change Float32.Model.pack (UnpackedFloat.sub Format.binary32 _ _) =
      Float32.Model.pack (UnpackedFloat.add Format.binary32 _ (-b).toModel.unpack)
    rw [unpack_neg, sub_unpacked]
  exact congrArg Float32.ofModel hmodel

lemma isFinite_neg : IsFinite (-a) ↔ IsFinite a := by
  rw [IsFinite, units_neg, Int.natAbs_neg, isNumber_neg, IsFinite]

lemma IsFinite.neg (ha : IsFinite a) : IsFinite (-a) := isFinite_neg.mpr ha

/-! ### Magnitudes -/

lemma canonical_abs {u : UnpackedFloat} (hu : Canonical u) : Canonical u.abs := by
  cases u with
  | finite s m e hm => exact hu
  | _ => trivial

lemma unitsOf_abs (u : UnpackedFloat) : unitsOf u.abs = |unitsOf u| := by
  have happly (s : Sign) (n : ℕ) : (n : ℤ) = |s.apply (n : ℤ)| := by
    rw [Int.abs_eq_natAbs, natAbs_apply]
  cases u with
  | notANumber => rfl
  | infinity s => exact happly s reach
  | zero s => rfl
  | finite s m e hm => exact happly s (magnitude m e)

lemma unpack_abs (a : Float32) : a.abs.toModel.unpack = a.toModel.unpack.abs :=
  unpack_pack (canonical_abs (canonical a))

lemma units_abs (a : Float32) : units a.abs = |units a| := by
  rw [units, unpack_abs, unitsOf_abs, units]

lemma isNumber_abs : IsNumber a.abs ↔ IsNumber a := by
  rw [IsNumber, unpack_abs, IsNumber]
  cases a.toModel.unpack <;> simp [UnpackedFloat.abs]

/-! ### Sums -/

lemma add_unpacked_comm (f : Format) (u v : UnpackedFloat) :
    UnpackedFloat.add f u v = UnpackedFloat.add f v u := by
  cases u with
  | finite s m e hm =>
    cases v with
    | finite s' m' e' hm' => simp only [UnpackedFloat.add, min_comm, add_comm]
    | _ => rfl
  | notANumber => cases v <;> rfl
  | infinity s => rcases v with s' | _ | s' | _ <;> first | rfl | (cases s <;> cases s' <;> rfl)
  | zero s => rcases v with s' | _ | s' | _ <;> first | rfl | (cases s <;> cases s' <;> rfl)

/-- Sums do not depend on the order of their operands. -/
lemma add_comm_single (a b : Float32) : a + b = b + a :=
  congrArg (fun u => Float32.ofModel (Float32.Model.pack u)) (add_unpacked_comm _ _ _)

lemma Bounded.infinity_add {v : UnpackedFloat} (hv : Bounded v) (f : Format) (s : Sign) :
    UnpackedFloat.add f (.infinity s) v = .infinity s := by
  cases hv <;> rfl

/-- A sum with an infinity is that infinity. -/
lemma units_infinity_add {s : Sign} (h : IsNumber (a + b)) (hs : a.toModel.unpack = .infinity s) :
    units (a + b) = s.apply (reach : ℤ) := by
  have hmodel := toModel_add a b
  have hb := h.of_add.2
  have hinfinity : UnpackedFloat.add Format.binary32 a.toModel.unpack b.toModel.unpack =
      .infinity s := by
    rw [hs] at hmodel ⊢
    rcases hb.cases with hfinite | ⟨s', hs'⟩
    · exact hfinite.bounded.infinity_add _ s
    · rw [hs'] at hmodel ⊢
      cases s <;> cases s' <;> first | rfl | exact absurd h (not_isNumber_of_pack hmodel)
  rw [hinfinity] at hmodel
  exact ((yields_infinity s).of_pack hmodel).2

/-- Sums keep the order, infinities included. -/
lemma add_le_add_single (h : IsNumber (a + b)) (h' : IsNumber (c + d)) (hac : a ≤ c) (hbd : b ≤ d) :
    a + b ≤ c + d := by
  obtain ⟨⟨ha, hc⟩, hac⟩ := le_iff.mp hac
  obtain ⟨⟨hb, hd⟩, hbd⟩ := le_iff.mp hbd
  have hbound := natAbs_units_le h
  have hbound' := natAbs_units_le h'
  refine le_of_units h h' ?_
  -- an infinity on the larger side, or on the smaller one, decides
  have hhigh : (reach : ℤ) ≤ units c ∨ (reach : ℤ) ≤ units d → units (c + d) = reach := by
    rintro (hc' | hd')
    · exact units_infinity_add h' (infinity_of_reach_le hc hc')
    · rw [add_comm_single] at h' ⊢
      exact units_infinity_add h' (infinity_of_reach_le hd hd')
  have hlow : units a ≤ -(reach : ℤ) ∨ units b ≤ -(reach : ℤ) → units (a + b) = -reach := by
    rintro (ha' | hb')
    · exact units_infinity_add h (infinity_of_le_neg_reach ha ha')
    · rw [add_comm_single] at h ⊢
      exact units_infinity_add h (infinity_of_le_neg_reach hb hb')
  by_cases hlarge : (reach : ℤ) ≤ units c ∨ (reach : ℤ) ≤ units d
  · have := hhigh hlarge
    omega
  by_cases hsmall : units a ≤ -(reach : ℤ) ∨ units b ≤ -(reach : ℤ)
  · have := hlow hsmall
    omega
  rw [not_or, not_le, not_le] at hlarge hsmall
  rw [(add_finite ⟨ha, by omega⟩ ⟨hb, by omega⟩).2, (add_finite ⟨hc, by omega⟩ ⟨hd, by omega⟩).2]
  exact roundedSigned_mono (by exact_mod_cast add_le_add hac hbd)

/-- Opposites turn the order round. -/
lemma neg_le_neg_single (h : a ≤ b) : -b ≤ -a := by
  obtain ⟨⟨ha, hb⟩, h⟩ := le_iff.mp h
  refine le_of_units (isNumber_neg.mpr hb) (isNumber_neg.mpr ha) ?_
  rw [units_neg, units_neg]
  exact neg_le_neg h

/-- What is finite can be added to every number. -/
lemma isNumber_add (ha : IsNumber a) (hb : IsFinite b) : IsNumber (a + b) := by
  rcases ha.cases with hfinite | ⟨s, hs⟩
  · exact (add_finite hfinite hb).1
  · have hmodel := toModel_add a b
    rw [hs, hb.bounded.infinity_add] at hmodel
    exact ((yields_infinity s).of_pack hmodel).1

/-- What is not negative has a sum. -/
lemma add_nonneg_single (ha : 0 ≤ a) (hb : 0 ≤ b) : 0 ≤ a + b := by
  obtain ⟨haNumber, ha⟩ := zero_le_iff.mp ha
  obtain ⟨hbNumber, hb⟩ := zero_le_iff.mp hb
  have hreach := reach_pos
  have hinfinity {c d : Float32} (hc : IsNumber c) (hd : IsNumber d) (hlarge : (reach : ℤ) ≤ units c)
      (hnonneg : 0 ≤ units d) : 0 ≤ c + d := by
    have hsum : UnpackedFloat.add Format.binary32 c.toModel.unpack d.toModel.unpack =
        .infinity .positive := by
      rw [infinity_of_reach_le hc hlarge]
      by_cases hd' : (reach : ℤ) ≤ units d
      · rw [infinity_of_reach_le hd hd']
        rfl
      · exact (IsFinite.bounded ⟨hd, by omega⟩).infinity_add _ _
    have hmodel := toModel_add c d
    rw [hsum] at hmodel
    obtain ⟨hnumber, hunits⟩ := (yields_infinity .positive).of_pack hmodel
    refine zero_le_iff.mpr ⟨hnumber, ?_⟩
    rw [hunits, Sign.apply]
    omega
  by_cases halarge : (reach : ℤ) ≤ units a
  · exact hinfinity haNumber hbNumber halarge hb
  by_cases hblarge : (reach : ℤ) ≤ units b
  · rw [add_comm_single]
    exact hinfinity hbNumber haNumber hblarge ha
  obtain ⟨hnumber, hunits⟩ := add_finite (a := a) (b := b) ⟨haNumber, by omega⟩ ⟨hbNumber, by omega⟩
  refine zero_le_iff.mpr ⟨hnumber, ?_⟩
  rw [hunits]
  exact roundedSigned_nonneg (by exact_mod_cast add_nonneg ha hb)

/-! ### Differences -/

lemma sub_finite (ha : IsFinite a) (hb : IsFinite b) :
    IsNumber (a - b) ∧ units (a - b) = roundedSigned ((units a - units b : ℤ)) := by
  have h := add_finite ha hb.neg
  rwa [units_neg, ← sub_eq_add_neg, ← Int.sub_eq_add_neg] at h

/-- A difference is only finite where both operands are. -/
lemma isFinite_of_sub (h : IsFinite (a - b)) : IsFinite a ∧ IsFinite b := by
  have hoperand {c d : Float32} (hc : IsNumber c) (hsum : IsFinite (c + d)) : IsFinite c := by
    refine hc.cases.resolve_right fun ⟨s, hs⟩ => hsum.2.ne ?_
    rw [units_infinity_add hsum.1 hs, natAbs_apply]
  obtain ⟨ha, hb⟩ := h.1.of_sub
  rw [sub_eq_add_neg] at h
  refine ⟨hoperand ha h, isFinite_neg.mp ?_⟩
  rw [add_comm_single] at h
  exact hoperand (isNumber_neg.mpr hb) h

/-- What lies between two numbers is no farther from the upper one than the lower one is. -/
lemma abs_sub_lt_of_between (hab : a ≤ b) (hbc : b ≤ c) (h : (a - c).abs < d) :
    (b - c).abs < d := by
  obtain ⟨⟨hnumber, hd⟩, hlt⟩ := lt_iff.mp h
  obtain ⟨⟨-, hb⟩, hab⟩ := le_iff.mp hab
  obtain ⟨-, hbc⟩ := le_iff.mp hbc
  rw [isNumber_abs] at hnumber
  rw [units_abs, Int.abs_eq_natAbs] at hlt
  have hbound := natAbs_units_le hd
  obtain ⟨ha, hc⟩ := isFinite_of_sub ⟨hnumber, by omega⟩
  have hmiddle : IsFinite b := by
    have hlow := ha.2
    have hhigh := hc.2
    exact ⟨hb, by omega⟩
  obtain ⟨hnumber', hunits'⟩ := sub_finite hmiddle hc
  have hle : units (a - c) ≤ units (b - c) := by
    rw [(sub_finite ha hc).2, hunits']
    exact roundedSigned_mono (by exact_mod_cast sub_le_sub_right hab _)
  have hnonpos : units (b - c) ≤ 0 := by
    rw [hunits']
    exact roundedSigned_nonpos (by exact_mod_cast sub_nonpos.mpr hbc)
  refine lt_iff.mpr ⟨⟨isNumber_abs.mpr hnumber', hd⟩, ?_⟩
  rw [units_abs, Int.abs_eq_natAbs]
  omega

/-! ### Products -/

lemma mul_unpacked_comm (f : Format) (u v : UnpackedFloat) :
    UnpackedFloat.mul f u v = UnpackedFloat.mul f v u := by
  have hsign (s s' : Sign) : s * s' = s' * s := by cases s <;> cases s' <;> rfl
  cases u <;> cases v <;> simp only [UnpackedFloat.mul, hsign, mul_comm, add_comm]

lemma mul_comm_single (a b : Float32) : a * b = b * a :=
  congrArg (fun u => Float32.ofModel (Float32.Model.pack u)) (mul_unpacked_comm _ _ _)

lemma infinity_mul {v : UnpackedFloat} (hpos : 0 < unitsOf v) (f : Format) (s : Sign) :
    UnpackedFloat.mul f (.infinity s) v = .infinity s := by
  have hsign : s * .positive = s := by cases s <;> rfl
  cases v with
  | notANumber => exact absurd hpos (lt_irrefl 0)
  | zero s' => exact absurd hpos (lt_irrefl 0)
  | infinity s' =>
    cases s' with
    | negative => exact absurd hpos (by simp [unitsOf, Sign.apply])
    | positive => rw [UnpackedFloat.mul, hsign]
  | finite s' m e hm =>
    cases s' with
    | negative => exact absurd hpos (by simp [unitsOf, Sign.apply])
    | positive => rw [UnpackedFloat.mul, hsign]

lemma zero_of_units_eq_zero (ha : IsNumber a) (hzero : units a = 0) :
    ∃ s, a.toModel.unpack = .zero s := by
  have hreach := reach_pos
  rw [units] at hzero
  rw [IsNumber] at ha
  cases hunpacked : a.toModel.unpack with
  | notANumber => exact absurd hunpacked ha
  | zero s => exact ⟨s, rfl⟩
  | infinity s =>
    have := congrArg Int.natAbs hzero
    rw [hunpacked, unitsOf, natAbs_apply] at this
    omega
  | finite s m e hm =>
    have := congrArg Int.natAbs hzero
    rw [hunpacked, unitsOf, natAbs_apply] at this
    exact absurd this (magnitude_pos hm e).ne'

/-- A product of an infinity with what is above zero is that infinity. -/
lemma infinity_mul_pos {s : Sign} (ha : a.toModel.unpack = .infinity s) (hb : 0 < units b) :
    IsNumber (a * b) ∧ units (a * b) = s.apply (reach : ℤ) := by
  have hmodel := toModel_mul a b
  rw [ha, infinity_mul hb] at hmodel
  exact (yields_infinity s).of_pack hmodel

/-- A product of an infinity with zero is no number. -/
lemma units_infinity_mul {s : Sign} (h : IsNumber (a * b)) (ha : a.toModel.unpack = .infinity s)
    (hb : 0 ≤ units b) : units (a * b) = s.apply (reach : ℤ) := by
  have hmodel := toModel_mul a b
  rcases hb.lt_or_eq with hpos | hzero
  · exact (infinity_mul_pos ha hpos).2
  · obtain ⟨s', hs'⟩ := zero_of_units_eq_zero h.of_mul.2 hzero.symm
    rw [ha, hs'] at hmodel
    exact absurd h (not_isNumber_of_pack hmodel)

/-- Products of what is not negative keep the order, infinities included. -/
lemma mul_le_mul_single (h : IsNumber (a * b)) (h' : IsNumber (c * d)) (ha : 0 ≤ a) (hb : 0 ≤ b)
    (hac : a ≤ c) (hbd : b ≤ d) : a * b ≤ c * d := by
  obtain ⟨haNumber, ha⟩ := zero_le_iff.mp ha
  obtain ⟨hbNumber, hb⟩ := zero_le_iff.mp hb
  obtain ⟨⟨-, hcNumber⟩, hac⟩ := le_iff.mp hac
  obtain ⟨⟨-, hdNumber⟩, hbd⟩ := le_iff.mp hbd
  have hbound := natAbs_units_le h
  refine le_of_units h h' ?_
  have hhigh : (reach : ℤ) ≤ units c ∨ (reach : ℤ) ≤ units d → units (c * d) = reach := by
    rintro (hc | hd)
    · exact units_infinity_mul h' (infinity_of_reach_le hcNumber hc) (hb.trans hbd)
    · rw [mul_comm_single] at h' ⊢
      exact units_infinity_mul h' (infinity_of_reach_le hdNumber hd) (ha.trans hac)
  by_cases hlarge : (reach : ℤ) ≤ units c ∨ (reach : ℤ) ≤ units d
  · have := hhigh hlarge
    omega
  rw [not_or, not_le, not_le] at hlarge
  rw [(mul_finite ⟨haNumber, by omega⟩ ⟨hbNumber, by omega⟩).2,
    (mul_finite ⟨hcNumber, by omega⟩ ⟨hdNumber, by omega⟩).2]
  refine roundedSigned_mono (div_le_div_of_nonneg_right ?_ (Nat.cast_nonneg _))
  exact_mod_cast mul_le_mul hac hbd hb (ha.trans hac)

/-- A product of finite numbers that are not negative is not negative either. -/
lemma mul_nonneg_single (ha : IsFinite a) (hb : IsFinite b) (hanonneg : 0 ≤ a) (hbnonneg : 0 ≤ b) :
    0 ≤ a * b := by
  obtain ⟨hnumber, hunits⟩ := mul_finite ha hb
  refine zero_le_iff.mpr ⟨hnumber, ?_⟩
  rw [hunits]
  refine roundedSigned_nonneg (div_nonneg ?_ (Nat.cast_nonneg _))
  exact_mod_cast mul_nonneg (zero_le_iff.mp hanonneg).2 (zero_le_iff.mp hbnonneg).2

/-- What is not negative has a square. -/
lemma mul_self_nonneg_single (ha : 0 ≤ a) : 0 ≤ a * a := by
  obtain ⟨hnumber, hnonneg⟩ := zero_le_iff.mp ha
  by_cases hlarge : (reach : ℤ) ≤ units a
  · have hreach := reach_pos
    obtain ⟨hsquare, hunits⟩ := infinity_mul_pos (infinity_of_reach_le hnumber hlarge)
      (b := a) (by omega)
    rw [Sign.apply] at hunits
    exact zero_le_iff.mpr ⟨hsquare, by omega⟩
  · have hfinite : IsFinite a := ⟨hnumber, by omega⟩
    exact mul_nonneg_single hfinite hfinite ha ha

/-- A part of a number, by a factor between zero and one, lies between zero and that number. -/
lemma mul_unit_between (h : IsNumber (a * b)) (hb : 0 ≤ b) (hb' : b ≤ 1) :
    min 0 (units a) ≤ units (a * b) ∧ units (a * b) ≤ max 0 (units a) := by
  obtain ⟨haNumber, hbNumber⟩ := h.of_mul
  have hfactor : 0 ≤ units b := (zero_le_iff.mp hb).2
  have hfactor' : units b ≤ one := (le_iff.mp hb').2
  have hone : one < reach := by decide
  rcases haNumber.cases with hfinite | ⟨s, hs⟩
  · have hshare : (0 : ℝ) ≤ units b / one ∧ (units b / one : ℝ) ≤ 1 := by
      have hpos : (0 : ℝ) < one := by exact_mod_cast (Nat.two_pow_pos 149)
      exact ⟨div_nonneg (by exact_mod_cast hfactor) hpos.le,
        (div_le_one hpos).mpr (by exact_mod_cast hfactor')⟩
    have hproduct : ((units a * units b : ℤ) / one : ℝ) = units a * (units b / one) := by
      push_cast
      ring
    rw [(mul_finite hfinite ⟨hbNumber, by omega⟩).2, hproduct]
    have hself := hfinite.roundedSigned_units
    rcases le_total 0 (units a) with hsign | hsign
    · have hcast : (0 : ℝ) ≤ units a := by exact_mod_cast hsign
      rw [min_eq_left hsign, max_eq_right hsign]
      exact ⟨roundedSigned_nonneg (mul_nonneg hcast hshare.1),
        (roundedSigned_mono (mul_le_of_le_one_right hcast hshare.2)).trans_eq hself⟩
    · have hcast : (units a : ℝ) ≤ 0 := by exact_mod_cast hsign
      rw [min_eq_right hsign, max_eq_left hsign]
      refine ⟨hself.symm.trans_le (roundedSigned_mono ?_), roundedSigned_nonpos ?_⟩
      · nlinarith [hshare.2]
      · exact mul_nonpos_of_nonpos_of_nonneg hcast hshare.1
  · rw [units_infinity_mul h hs hfactor, ← units_of_infinity hs]
    exact ⟨min_le_right _ _, le_max_right _ _⟩

/-! ### Square roots -/

/-- The square root of an infinity is that infinity. -/
lemma sqrt_infinity (ha : a.toModel.unpack = .infinity .positive) :
    IsNumber a.sqrt ∧ units a.sqrt = reach := by
  have hmodel := toModel_sqrt a
  rw [ha] at hmodel
  exact (yields_infinity .positive).of_pack hmodel

lemma isNumber_sqrt (ha : IsNumber a) (hnonneg : 0 ≤ units a) : IsNumber a.sqrt := by
  by_cases hlarge : (reach : ℤ) ≤ units a
  · exact (sqrt_infinity (infinity_of_reach_le ha hlarge)).1
  · exact (sqrt_finite ⟨ha, by omega⟩ hnonneg).1

/-- Square roots keep the order, infinity included. -/
lemma sqrt_le_sqrt_single (ha : 0 ≤ a) (h : a ≤ b) : a.sqrt ≤ b.sqrt := by
  obtain ⟨haNumber, hnonneg⟩ := zero_le_iff.mp ha
  obtain ⟨⟨-, hb⟩, hab⟩ := le_iff.mp h
  have hroot := isNumber_sqrt haNumber hnonneg
  have hbound := natAbs_units_le hroot
  refine le_of_units hroot (isNumber_sqrt hb (hnonneg.trans hab)) ?_
  by_cases hlarge : (reach : ℤ) ≤ units b
  · rw [(sqrt_infinity (infinity_of_reach_le hb hlarge)).2]
    omega
  · rw [(sqrt_finite ⟨haNumber, by omega⟩ hnonneg).2,
      (sqrt_finite ⟨hb, by omega⟩ (hnonneg.trans hab)).2]
    refine roundedSigned_mono (Real.sqrt_le_sqrt ?_)
    exact mul_le_mul_of_nonneg_right (by exact_mod_cast hab) (Nat.cast_nonneg _)

/-- A square root that is a number is not negative. -/
lemma sqrt_nonneg_single (h : IsNumber a.sqrt) : 0 ≤ a.sqrt := by
  have hmodel := toModel_sqrt a
  have hnonneg : 0 ≤ units a := by
    by_contra hneg
    rw [units] at hneg
    refine not_isNumber_of_pack ?_ h
    rw [hmodel]
    cases hunpacked : a.toModel.unpack with
    | notANumber => rfl
    | zero s => exact absurd (by rw [hunpacked]; rfl) hneg
    | infinity s =>
      cases s with
      | negative => rfl
      | positive => exact absurd (by rw [hunpacked]; exact Int.natCast_nonneg _) hneg
    | finite s m e hm =>
      cases s with
      | negative => rfl
      | positive => exact absurd (by rw [hunpacked]; exact Int.natCast_nonneg _) hneg
  have hnumber : IsNumber a := by
    intro hnone
    rw [hnone] at hmodel
    exact not_isNumber_of_pack hmodel h
  exact sqrt_le_sqrt_single (a := 0) (by decide) (zero_le_iff.mpr ⟨hnumber, hnonneg⟩)

end Single

end Sightline
