import Mathlib.Tactic
import Sightline.Proofs.Single.Bits
import Sightline.Single

/-!
# Singles as whole numbers of units

Every finite single is a whole number of units of `2 ^ (-149)`. Infinities are counted as the power
of two that no finite single reaches, so that on everything that is a number, comparing singles is
comparing their units, and dropping a fraction is a division.
-/

namespace Sightline

namespace Single

open Float.Model (Format UnpackedFloat)
open Float.Model.UnpackedFloat

/-! ### Canonical form -/

/-- A mantissa has 24 bits, or fewer where the exponent is the least one. -/
def Canonical : UnpackedFloat → Prop
  | .finite _ m e _ => m < 2 ^ 24 ∧ -149 ≤ e ∧ e ≤ 104 ∧ (2 ^ 23 ≤ m ∨ e = -149)
  | _ => True

lemma toNat_one_append (m : BitVec 23) : (1#1 ++ m).toNat = 2 ^ 23 + m.toNat := by
  rw [BitVec.toNat_append]
  exact (Nat.shiftLeft_add_eq_or_of_lt m.isLt 1).symm

lemma canonical_unpack (b : BitVec Format.binary32.numBits) :
    Canonical (UnpackedFloat.unpack Format.binary32 b) := by
  have hfield : (unpackExponent b).toNat < 256 := (unpackExponent b).isLt
  have hfraction : (unpackMantissa b).toNat < 2 ^ 23 := (unpackMantissa b).isLt
  have hbias : (Format.binary32.exponentBias : ℤ) = 127 := rfl
  have hbits : (Format.binary32.mantissaBitsWithoutImplicit : ℤ) = 23 := rfl
  rw [UnpackedFloat.unpack]
  split
  next => split <;> trivial
  next htop =>
    have hne : (unpackExponent b).toNat ≠ 255 := fun h => htop (BitVec.eq_of_toNat_eq h)
    split
    next hlow =>
      split
      next => trivial
      next =>
        have hzero : (unpackExponent b).toNat = 0 := congrArg BitVec.toNat hlow
        simp only [Canonical, hbias, hbits, hzero]
        omega
    next hlow =>
      have hpos : (unpackExponent b).toNat ≠ 0 := fun h => hlow (BitVec.eq_of_toNat_eq h)
      have happend := toNat_one_append (unpackMantissa b)
      simp only [Canonical, hbias, hbits]
      omega

/-! ### Units -/

/-- The units of a mantissa and an exponent. -/
def magnitude (m : ℕ) (e : ℤ) : ℕ := m * 2 ^ (e + 149).toNat

/-- The units of one. -/
def one : ℕ := 2 ^ 149

/-- The units an infinity is counted as. -/
def reach : ℕ := 2 ^ 128 * one

/-- The number of units an unpacked single stands for. -/
def unitsOf : UnpackedFloat → ℤ
  | .infinity s => s.apply reach
  | .notANumber => 0
  | .zero _ => 0
  | .finite s m e _ => s.apply (magnitude m e)

/-- The number of units a single stands for. -/
def units (x : Float32) : ℤ := unitsOf x.toModel.unpack

/-- The single stands for a number or an infinity. -/
def IsNumber (x : Float32) : Prop := x.toModel.unpack ≠ .notANumber

lemma canonical (x : Float32) : Canonical x.toModel.unpack := canonical_unpack _

lemma magnitude_pos {m : ℕ} (hm : 0 < m) (e : ℤ) : 0 < magnitude m e :=
  Nat.mul_pos hm (Nat.two_pow_pos _)

lemma reach_pos : 0 < reach := Nat.mul_pos (Nat.two_pow_pos _) (Nat.two_pow_pos _)

/-- A canonical mantissa stays below the next power of two whatever the exponent. -/
lemma magnitude_lt_of_exponent_lt {m m' : ℕ} {e e' : ℤ} (hm : m < 2 ^ 24) (he : -149 ≤ e)
    (hlt : e < e') (hm' : 2 ^ 23 ≤ m') : magnitude m e < magnitude m' e' := by
  calc magnitude m e < 2 ^ 24 * 2 ^ (e + 149).toNat :=
        Nat.mul_lt_mul_of_pos_right hm (Nat.two_pow_pos _)
    _ = 2 ^ 23 * 2 ^ ((e + 149).toNat + 1) := by rw [pow_succ 2 (e + 149).toNat]; omega
    _ ≤ 2 ^ 23 * 2 ^ (e' + 149).toNat :=
        Nat.mul_le_mul_left _ (Nat.pow_le_pow_right Nat.zero_lt_two (by omega))
    _ ≤ magnitude m' e' := Nat.mul_le_mul_right _ hm'

lemma magnitude_lt_reach {m : ℕ} {e : ℤ} (hm : m < 2 ^ 24) (he : e ≤ 104) :
    magnitude m e < reach := by
  calc magnitude m e < 2 ^ 24 * 2 ^ (e + 149).toNat :=
        Nat.mul_lt_mul_of_pos_right hm (Nat.two_pow_pos _)
    _ ≤ 2 ^ 24 * 2 ^ 253 :=
        Nat.mul_le_mul_left _ (Nat.pow_le_pow_right Nat.zero_lt_two (by omega))
    _ = reach := by rw [reach, one, ← pow_add, ← pow_add]

/-- Canonical numbers are compared by exponent first. -/
lemma compare_magnitude {m m' : ℕ} {e e' : ℤ} (hm : m < 2 ^ 24) (he : -149 ≤ e)
    (hnormal : 2 ^ 23 ≤ m ∨ e = -149) (hm' : m' < 2 ^ 24) (he' : -149 ≤ e')
    (hnormal' : 2 ^ 23 ≤ m' ∨ e' = -149) :
    (compare e e').then (compare m m') = compare (magnitude m e) (magnitude m' e') := by
  rcases lt_trichotomy e e' with hlt | rfl | hgt
  · rw [compare_lt_iff_lt.mpr hlt]
    exact (compare_lt_iff_lt.mpr
      (magnitude_lt_of_exponent_lt hm he hlt (hnormal'.resolve_right (by omega)))).symm
  · have hpos : 0 < 2 ^ (e + 149).toNat := Nat.two_pow_pos _
    rw [compare_eq_iff_eq.mpr rfl]
    change compare m m' = _
    rcases lt_trichotomy m m' with hlt | rfl | hgt
    · rw [compare_lt_iff_lt.mpr hlt]
      exact (compare_lt_iff_lt.mpr (Nat.mul_lt_mul_of_pos_right hlt hpos)).symm
    · rw [compare_eq_iff_eq.mpr rfl, compare_eq_iff_eq.mpr rfl]
    · rw [compare_gt_iff_gt.mpr hgt]
      exact (compare_gt_iff_gt.mpr (Nat.mul_lt_mul_of_pos_right hgt hpos)).symm
  · rw [compare_gt_iff_gt.mpr hgt]
    exact (compare_gt_iff_gt.mpr
      (magnitude_lt_of_exponent_lt hm' he' hgt (hnormal.resolve_right (by omega)))).symm

lemma compare_cast (a b : ℕ) : compare (a : ℤ) b = compare a b := by
  rcases lt_trichotomy a b with hlt | rfl | hgt
  · rw [compare_lt_iff_lt.mpr hlt, compare_lt_iff_lt.mpr (Int.ofNat_lt.mpr hlt)]
  · rw [compare_eq_iff_eq.mpr rfl, compare_eq_iff_eq.mpr rfl]
  · rw [compare_gt_iff_gt.mpr hgt, compare_gt_iff_gt.mpr (Int.ofNat_lt.mpr hgt)]

lemma compare_neg_cast (a b : ℕ) : compare (-(a : ℤ)) (-b) = (compare a b).swap := by
  rw [Nat.compare_swap, ← compare_cast]
  rcases lt_trichotomy (a : ℤ) b with hlt | heq | hgt
  · rw [compare_gt_iff_gt.mpr hlt, compare_gt_iff_gt.mpr (Int.neg_lt_neg hlt)]
  · rw [heq, compare_eq_iff_eq.mpr rfl, compare_eq_iff_eq.mpr rfl]
  · rw [compare_lt_iff_lt.mpr hgt, compare_lt_iff_lt.mpr (Int.neg_lt_neg hgt)]

lemma compare_finite {s s' : Sign} {m m' : ℕ} {e e' : ℤ} {hm : 0 < m} {hm' : 0 < m'}
    (hu : Canonical (.finite s m e hm)) (hv : Canonical (.finite s' m' e' hm')) :
    UnpackedFloat.compare (.finite s m e hm) (.finite s' m' e' hm') =
      some (compare (s.apply (magnitude m e)) (s'.apply (magnitude m' e'))) := by
  have hpos := magnitude_pos hm e
  have hpos' := magnitude_pos hm' e'
  have hmagnitude := compare_magnitude hu.1 hu.2.1 hu.2.2.2 hv.1 hv.2.1 hv.2.2.2
  cases s <;> cases s' <;> simp only [UnpackedFloat.compare, Sign.apply, Option.some.injEq]
  case negative.negative => rw [hmagnitude, compare_neg_cast]
  case positive.positive => rw [hmagnitude, compare_cast]
  case negative.positive =>
    symm
    rw [compare_lt_iff_lt]
    omega
  case positive.negative =>
    symm
    rw [compare_gt_iff_gt]
    omega

lemma some_lt_eq {a b : ℤ} (h : a < b) : some Ordering.lt = some (compare a b) :=
  congrArg some (compare_lt_iff_lt.mpr h).symm

lemma some_gt_eq {a b : ℤ} (h : b < a) : some Ordering.gt = some (compare a b) :=
  congrArg some (compare_gt_iff_gt.mpr h).symm

lemma some_eq_eq (a : ℤ) : some Ordering.eq = some (compare a a) :=
  congrArg some (compare_eq_iff_eq.mpr rfl).symm

lemma compare_zero {v : UnpackedFloat} (hv : v ≠ .notANumber) (s : Sign) :
    UnpackedFloat.compare (.zero s) v = some (compare 0 (unitsOf v)) := by
  have hreach := reach_pos
  cases v with
  | notANumber => exact absurd rfl hv
  | zero s' => exact some_eq_eq 0
  | infinity s' =>
    cases s' <;> simp only [UnpackedFloat.compare, unitsOf, Sign.apply]
    · apply some_gt_eq; omega
    · apply some_lt_eq; omega
  | finite s' m' e' hm' =>
    have hpos := magnitude_pos hm' e'
    cases s' <;> simp only [UnpackedFloat.compare, unitsOf, Sign.apply]
    · apply some_gt_eq; omega
    · apply some_lt_eq; omega

lemma compare_infinity {v : UnpackedFloat} (hv : Canonical v) (hv' : v ≠ .notANumber) (s : Sign) :
    UnpackedFloat.compare (.infinity s) v = some (compare (s.apply (reach : ℤ)) (unitsOf v)) := by
  have hreach := reach_pos
  cases v with
  | notANumber => exact absurd rfl hv'
  | zero s' =>
    cases s <;> simp only [UnpackedFloat.compare, unitsOf, Sign.apply]
    · apply some_lt_eq; omega
    · apply some_gt_eq; omega
  | infinity s' =>
    cases s <;> cases s' <;> simp only [UnpackedFloat.compare, unitsOf, Sign.apply]
    · exact some_eq_eq _
    · apply some_lt_eq; omega
    · apply some_gt_eq; omega
    · exact some_eq_eq _
  | finite s' m' e' hm' =>
    have hmagnitude := magnitude_lt_reach hv.1 hv.2.2.1
    cases s <;> cases s' <;> simp only [UnpackedFloat.compare, unitsOf, Sign.apply]
    case negative.negative => apply some_lt_eq; omega
    case negative.positive => apply some_lt_eq; omega
    case positive.negative => apply some_gt_eq; omega
    case positive.positive => apply some_gt_eq; omega

/-- Comparing singles is comparing units, except with what is no number. -/
lemma compare_unpacked {u v : UnpackedFloat} (hu : Canonical u) (hv : Canonical v)
    (hu' : u ≠ .notANumber) (hv' : v ≠ .notANumber) :
    u.compare v = some (compare (unitsOf u) (unitsOf v)) := by
  cases u with
  | notANumber => exact absurd rfl hu'
  | zero s => exact compare_zero hv' s
  | infinity s => exact compare_infinity hv hv' s
  | finite s m e hm =>
    have hmagnitude := magnitude_lt_reach hu.1 hu.2.2.1
    have hpos := magnitude_pos hm e
    cases v with
    | notANumber => exact absurd rfl hv'
    | zero s' =>
      cases s <;> simp only [UnpackedFloat.compare, unitsOf, Sign.apply]
      · apply some_lt_eq; omega
      · apply some_gt_eq; omega
    | infinity s' =>
      cases s <;> cases s' <;> simp only [UnpackedFloat.compare, unitsOf, Sign.apply]
      case negative.negative => apply some_gt_eq; omega
      case negative.positive => apply some_lt_eq; omega
      case positive.negative => apply some_gt_eq; omega
      case positive.positive => apply some_lt_eq; omega
    | finite s' m' e' hm' => exact compare_finite hu hv

/-! ### Order -/

variable {x y : Float32}

lemma compare_of_isNumber (hx : IsNumber x) (hy : IsNumber y) :
    x.toModel.unpack.compare y.toModel.unpack = some (compare (units x) (units y)) :=
  compare_unpacked (canonical x) (canonical y) hx hy

lemma compare_of_not_isNumber (h : ¬(IsNumber x ∧ IsNumber y)) :
    x.toModel.unpack.compare y.toModel.unpack = none := by
  rw [not_and_or, IsNumber, IsNumber, not_not, not_not] at h
  rcases h with h | h
  · rw [h]
    rfl
  · rw [h]
    cases x.toModel.unpack <;> rfl

/-- Only numbers can be compared. -/
lemma le_iff : x ≤ y ↔ (IsNumber x ∧ IsNumber y) ∧ units x ≤ units y := by
  have hle : x ≤ y ↔ x.toModel.unpack.le y.toModel.unpack = true := decide_eq_true_iff
  rw [hle, UnpackedFloat.le]
  by_cases h : IsNumber x ∧ IsNumber y
  · rw [compare_of_isNumber h.1 h.2, Option.any_some, Int.isLE_compare]
    exact (and_iff_right h).symm
  · rw [compare_of_not_isNumber h]
    simp [h]

lemma lt_iff : x < y ↔ (IsNumber x ∧ IsNumber y) ∧ units x < units y := by
  have hlt : x < y ↔ x.toModel.unpack.lt y.toModel.unpack = true := decide_eq_true_iff
  rw [hlt, UnpackedFloat.lt]
  by_cases h : IsNumber x ∧ IsNumber y
  · rw [compare_of_isNumber h.1 h.2, beq_iff_eq, Option.some.injEq, compare_lt_iff_lt]
    exact (and_iff_right h).symm
  · rw [compare_of_not_isNumber h]
    simp [h]

lemma beq_iff : (x == y) = true ↔ (IsNumber x ∧ IsNumber y) ∧ units x = units y := by
  have hbeq : (x == y) = x.toModel.unpack.beq y.toModel.unpack := rfl
  rw [hbeq, UnpackedFloat.beq]
  by_cases h : IsNumber x ∧ IsNumber y
  · rw [compare_of_isNumber h.1 h.2, beq_iff_eq, Option.some.injEq, compare_eq_iff_eq]
    exact (and_iff_right h).symm
  · rw [compare_of_not_isNumber h]
    simp [h]

/-- What is equal to itself is a number. -/
lemma isDefined_iff : Scalar.isDefined x = true ↔ IsNumber x := by
  rw [Scalar.isDefined]
  refine beq_iff.trans ?_
  simp

lemma isNumber_of_isFinite (hx : Scalar.isFinite x = true) : IsNumber x := by
  intro h
  have hfinite : x.toModel.unpack.isFinite = true := hx
  rw [h] at hfinite
  exact absurd hfinite (by decide)

/-! ### Whole parts -/

lemma mantissa_shiftRight (em : ExtendedMantissa) (n : ℕ) :
    (em >>> n).mantissa = em.mantissa / 2 ^ n := by
  induction n with
  | zero => exact (Nat.div_one _).symm
  | succ n ih =>
    change (em >>> n).mantissa / 2 = _
    rw [ih, Nat.div_div_eq_div_mul, pow_succ]

/-- The whole part of a mantissa and an exponent is the number of whole ones among their units. -/
lemma roundToInt_eq (s : Sign) (m : ℕ) {e : ℤ} (he : -149 ≤ e) :
    roundToInt s m e = s.apply (magnitude m e / one : ℕ) := by
  have hround : roundToInt s m e =
      s.apply ((m <<< (e - 0).toNat / 2 ^ (0 - (e - ((e - 0).toNat : ℕ))).toNat : ℕ) : ℤ) := by
    simp only [roundToInt, decreaseExponent, shiftToExponent, mantissa_shiftRight,
      ExtendedMantissa.ofMantissaAndAccuracy]
  rw [hround, magnitude, one, Nat.shiftLeft_eq]
  congr 2
  rcases le_total 0 e with hnonneg | hneg
  · rw [show (e - 0).toNat = e.toNat by simp, show (0 - (e - (e.toNat : ℕ))).toNat = 0 by omega,
      show (e + 149).toNat = e.toNat + 149 by omega, pow_zero, Nat.div_one, pow_add, ← mul_assoc,
      Nat.mul_div_cancel _ (Nat.two_pow_pos _)]
  · have hsplit : 149 = (-e).toNat + (e + 149).toNat := by omega
    rw [show (e - 0).toNat = 0 by omega, show (0 - (e - ((0 : ℕ) : ℤ))).toNat = (-e).toNat by simp,
      pow_zero, mul_one]
    conv_rhs => rw [show 2 ^ 149 = 2 ^ (-e).toNat * 2 ^ (e + 149).toNat by rw [← pow_add, ← hsplit]]
    rw [Nat.mul_div_mul_right _ _ (Nat.two_pow_pos _)]

lemma toNat_ofNatClamp (n : ℕ) : (UInt64.ofNatClamp n).toNat = min n (UInt64.size - 1) := by
  rw [UInt64.ofNatClamp]
  split_ifs with h
  · rw [min_eq_left (Nat.le_sub_one_of_lt h)]
    rfl
  · rw [min_eq_right (by omega)]
    rfl

/-- Taking the whole part leaves the whole ones, up to what a word can hold. -/
lemma toNat_eq (x : Float32) : toNat x = min ((units x).toNat / one) (UInt64.size - 1) := by
  have hword : toNat x = (UInt64.ofNatClamp
      (UnpackedFloat.toInt 0 (UInt64.size - 1) x.toModel.unpack).toNat).toNat := rfl
  have hcanonical := canonical x
  rw [hword, toNat_ofNatClamp, units]
  cases hunpacked : x.toModel.unpack with
  | notANumber => simp [UnpackedFloat.toInt, unitsOf]
  | zero s => simp [UnpackedFloat.toInt, unitsOf]
  | infinity s =>
    cases s with
    | negative => simp [UnpackedFloat.toInt, unitsOf, Sign.apply]
    | positive =>
      have hwhole : reach / one = 2 ^ 128 := Nat.mul_div_cancel _ (Nat.two_pow_pos _)
      simp only [UnpackedFloat.toInt, unitsOf, Sign.apply, Int.toNat_natCast, hwhole]
      decide
  | finite s m e hm =>
    rw [hunpacked] at hcanonical
    rw [UnpackedFloat.toInt, roundToInt_eq s m hcanonical.2.1, unitsOf]
    cases s with
    | negative => simp only [Sign.apply, Int.toNat_neg_natCast, Nat.zero_div]
    | positive => simp only [Sign.apply, Int.toNat_natCast]

end Single

end Sightline
