import Mathlib.Algebra.Order.Floor.Ring
import Mathlib.Data.EReal.Basic
import Mathlib.Tactic
import Sightline.Proofs.Single.Order

/-!
# Whole numbers

A single that is a number stands for a real number, where an infinity counts as the power of two
that no finite single reaches. Its floor and its ceiling are then those of that real number: below
`2 ^ 23` the whole part is taken in a word, which holds it, and from there on a single has no
fraction.
-/

namespace Sightline

namespace Single

open Float.Model (Format UnpackedFloat)
open Float.Model.UnpackedFloat

variable {a b x : Float32} {j k : ℤ}

/-! ### Values -/

/-- The number that a single stands for. -/
noncomputable def value (x : Float32) : ℝ := units x / one

lemma one_pos : (0 : ℝ) < one := by
  rw [one]
  positivity

lemma value_le_value_iff : value a ≤ value b ↔ units a ≤ units b := by
  rw [value, value, div_le_div_iff_of_pos_right one_pos, Int.cast_le]

lemma value_lt_value_iff : value a < value b ↔ units a < units b := by
  rw [value, value, div_lt_div_iff_of_pos_right one_pos, Int.cast_lt]

lemma value_eq_value_iff : value a = value b ↔ units a = units b := by
  rw [le_antisymm_iff, le_antisymm_iff, value_le_value_iff, value_le_value_iff]

lemma le_iff_value (ha : IsNumber a) (hb : IsNumber b) : a ≤ b ↔ value a ≤ value b := by
  rw [le_iff, and_iff_right ⟨ha, hb⟩, value_le_value_iff]

lemma lt_iff_value (ha : IsNumber a) (hb : IsNumber b) : a < b ↔ value a < value b := by
  rw [lt_iff, and_iff_right ⟨ha, hb⟩, value_lt_value_iff]

lemma value_zero : value (0 : Float32) = 0 := by
  rw [value, units_zero, Int.cast_zero, zero_div]

lemma value_neg (x : Float32) : value (-x) = -value x := by
  rw [value, units_neg, Int.cast_neg, neg_div, value]

lemma value_abs (x : Float32) : value x.abs = |value x| := by
  rw [value, units_abs, Int.cast_abs, value, abs_div, abs_of_pos one_pos]

lemma floor_value (x : Float32) : ⌊value x⌋ = units x / one := by
  rw [value, Int.floor_div_natCast, Int.floor_intCast]

/-! ### Infinities -/

/-- The number that a single stands for, or the infinity. What is no number counts as zero. -/
noncomputable def extended (x : Float32) : EReal :=
  match x.toModel.unpack with
  | .notANumber => 0
  | .infinity .positive => ⊤
  | .infinity .negative => ⊥
  | .zero _ => 0
  | .finite s m e _ => (((s.apply (m : ℤ) : ℤ) * ((2 : ℕ) : ℝ) ^ e : ℝ) : EReal)

lemma extended_of_isFinite (hx : IsFinite x) : extended x = (value x : ℝ) := by
  have hcanonical := canonical x
  rw [extended, value, units]
  cases hunpacked : x.toModel.unpack with
  | notANumber => exact absurd hunpacked hx.1
  | infinity s =>
    have hlt := hx.2
    rw [units, hunpacked, unitsOf, natAbs_apply] at hlt
    exact absurd hlt (lt_irrefl _)
  | zero s => simp [unitsOf]
  | finite s m e hm =>
    rw [hunpacked] at hcanonical
    have hmagnitude : (magnitude m e : ℝ) = m * ((2 : ℕ) : ℝ) ^ e * one := by
      rw [Nat.cast_ofNat, cast_magnitude m hcanonical.2.1, zpow_add₀ two_ne_zero, mul_assoc, one]
      norm_cast
    simp only [unitsOf]
    congr 1
    rw [eq_div_iff one_pos.ne']
    cases s with
    | negative =>
      simp only [Sign.apply, Int.cast_neg, Int.cast_natCast, hmagnitude]
      ring
    | positive => simp only [Sign.apply, Int.cast_natCast, hmagnitude]

/-- An infinity counts as the power of two that no finite single reaches. -/
lemma value_of_infinity {s : Sign} (hx : x.toModel.unpack = .infinity s) :
    value x = (s.apply (2 ^ 128 : ℤ) : ℤ) := by
  have hreach : ((reach : ℤ) : ℝ) = 2 ^ 128 * one := by rw [reach]; push_cast; ring
  rw [value, units_of_infinity hx, div_eq_iff one_pos.ne']
  cases s with
  | negative => simp only [Sign.apply, Int.cast_neg, hreach]; push_cast; ring
  | positive => simp only [Sign.apply, hreach]; push_cast; ring

/-- Below that power it makes no difference. -/
lemma extended_le_iff (hx : IsNumber x) {r : ℝ} (hr : |r| < 2 ^ 128) :
    (extended x ≤ r ↔ value x ≤ r) ∧ ((r : EReal) ≤ extended x ↔ r ≤ value x) := by
  obtain ⟨hlow, hhigh⟩ := abs_lt.mp hr
  rcases hx.cases with hfinite | ⟨s, hs⟩
  · rw [extended_of_isFinite hfinite, EReal.coe_le_coe_iff, EReal.coe_le_coe_iff]
    exact ⟨Iff.rfl, Iff.rfl⟩
  · rw [value_of_infinity hs, extended, hs]
    cases s with
    | negative =>
      simp only [Sign.apply, Int.cast_neg, Int.cast_pow, Int.cast_ofNat, bot_le, le_bot_iff,
        EReal.coe_ne_bot, true_iff, false_iff, not_le]
      exact ⟨hlow.le, hlow⟩
    | positive =>
      simp only [Sign.apply, Int.cast_pow, Int.cast_ofNat, le_top, top_le_iff, EReal.coe_ne_top,
        true_iff, false_iff, not_le]
      exact ⟨hhigh, hhigh.le⟩

/-! ### Singles without a fraction -/

/-- The single is a whole number. -/
def IsWhole (x : Float32) (k : ℤ) : Prop := IsNumber x ∧ units x = k * one

lemma IsWhole.value_eq (h : IsWhole x k) : value x = k := by
  rw [value, h.2, Int.cast_mul, Int.cast_natCast, mul_div_cancel_right₀ _ one_pos.ne']

lemma isWhole_of_value (hx : IsNumber x) (h : value x = k) : IsWhole x k := by
  rw [value, div_eq_iff one_pos.ne'] at h
  exact ⟨hx, by exact_mod_cast h⟩

lemma isWhole_ofNat {n : ℕ} (hn : n ≤ 2 ^ 24) : IsWhole (ofNat n) n := ofNat_exact hn

lemma isWhole_one : IsWhole 1 1 := isWhole_ofNat (n := 1) (by omega)

lemma IsWhole.isFinite (h : IsWhole x k) (hk : k.natAbs ≤ 2 ^ 24) : IsFinite x := by
  refine ⟨h.1, ?_⟩
  rw [h.2, Int.natAbs_mul, Int.natAbs_natCast]
  exact (exact_mul_one hk).1

lemma IsWhole.neg (h : IsWhole x k) : IsWhole (-x) (-k) := by
  rw [IsWhole, isNumber_neg, units_neg, h.2, neg_mul]
  exact ⟨h.1, rfl⟩

/-- A sum of whole numbers does not round where it is small enough. -/
lemma IsWhole.add (ha : IsWhole a j) (hb : IsWhole b k) (ha' : IsFinite a) (hb' : IsFinite b)
    (hsum : (j + k).natAbs ≤ 2 ^ 24) : IsWhole (a + b) (j + k) := by
  obtain ⟨hnumber, hunits⟩ := add_finite ha' hb'
  have hexact : Exact ((j + k) * one).natAbs := by
    rw [Int.natAbs_mul, Int.natAbs_natCast]
    exact exact_mul_one hsum
  rw [ha.2, hb.2, ← add_mul, roundedSigned_of_exact hexact] at hunits
  exact ⟨hnumber, hunits⟩

/-- From `2 ^ 23` on a single has no fraction. -/
lemma one_dvd_units (hx : IsNumber x) (hlarge : 2 ^ 23 * (one : ℤ) ≤ |units x|) :
    (one : ℤ) ∣ units x := by
  have hcanonical := canonical x
  rw [units] at hlarge ⊢
  cases hunpacked : x.toModel.unpack with
  | notANumber => exact absurd hunpacked hx
  | zero s => exact dvd_zero _
  | infinity s =>
    have hdvd : (one : ℤ) ∣ reach := ⟨2 ^ 128, by rw [reach]; push_cast; ring⟩
    cases s with
    | negative => exact (dvd_neg.mpr hdvd)
    | positive => exact hdvd
  | finite s m e hm =>
    rw [hunpacked] at hcanonical hlarge
    obtain ⟨hbits, hlow, -, -⟩ := hcanonical
    have hexponent : 0 ≤ e := by
      by_contra hneg
      rw [unitsOf, Int.abs_eq_natAbs, natAbs_apply] at hlarge
      have hlt : magnitude m e < 2 ^ 23 * one := by
        calc magnitude m e < 2 ^ 24 * 2 ^ (e + 149).toNat :=
              Nat.mul_lt_mul_of_pos_right hbits (Nat.two_pow_pos _)
          _ ≤ 2 ^ 24 * 2 ^ 148 :=
              Nat.mul_le_mul_left _ (Nat.pow_le_pow_right Nat.zero_lt_two (by omega))
          _ = 2 ^ 23 * one := by rw [one, ← pow_add, ← pow_add]
      exact absurd hlarge (not_le.mpr (by exact_mod_cast hlt))
    have hdvd : (one : ℤ) ∣ magnitude m e := by
      refine Int.natCast_dvd_natCast.mpr (Dvd.dvd.mul_left ?_ m)
      exact Nat.pow_dvd_pow 2 (by omega)
    cases s with
    | negative => exact (dvd_neg.mpr hdvd)
    | positive => exact hdvd

lemma isWhole_of_large (hx : IsNumber x) (hlarge : 2 ^ 23 * (one : ℤ) ≤ |units x|) :
    IsWhole x ⌊value x⌋ := by
  rw [IsWhole, floor_value, Int.ediv_mul_cancel (one_dvd_units hx hlarge)]
  exact ⟨hx, rfl⟩

/-! ### Floors and ceilings -/

/-- Below `2 ^ 23` a word holds the whole part. -/
lemma isWhole_wholePart (hsmall : |value x| < 2 ^ 23) : IsWhole (wholePart x) ⌊|value x|⌋ := by
  have hword : wholePart x = ofNat (toNat x.abs) := by
    rw [ofNat, toNat, UInt64.ofNat_toNat]
    rfl
  have hfloor : ⌊|value x|⌋ = |units x| / one := by rw [← value_abs, floor_value, units_abs]
  have hnonneg : 0 ≤ ⌊|value x|⌋ := Int.floor_nonneg.mpr (abs_nonneg _)
  have hlt : ⌊|value x|⌋ < 2 ^ 23 := Int.floor_lt.mpr (by exact_mod_cast hsmall)
  have hnat : toNat x.abs = ⌊|value x|⌋.toNat := by
    have hquotient : (units x.abs).toNat / one = ⌊|value x|⌋.toNat := by
      rw [hfloor, units_abs, Int.abs_eq_natAbs, Int.toNat_natCast, ← Int.natCast_div,
        Int.toNat_natCast]
    rw [toNat_eq, hquotient, UInt64.size]
    omega
  have hwhole := isWhole_ofNat (n := ⌊|value x|⌋.toNat) (by omega)
  rwa [hword, hnat, ← Int.toNat_of_nonneg hnonneg, Int.toNat_natCast]

lemma abs_lt_wholeFrom_iff (hx : IsNumber x) : x.abs < wholeFrom ↔ |value x| < 2 ^ 23 := by
  have hliteral : wholeFrom = ofNat (2 ^ 23) := ext_bits (by decide +kernel)
  have hfrom : IsWhole wholeFrom (2 ^ 23) := hliteral ▸ isWhole_ofNat (by omega)
  have hvalue : value wholeFrom = 2 ^ 23 := by
    rw [hfrom.value_eq]
    norm_num
  rw [lt_iff_value (isNumber_abs.mpr hx) hfrom.1, hvalue, value_abs]

/-- Below zero the whole part is one short, unless there is no fraction. -/
lemma isWhole_floor_neg (hx : IsNumber x) (hneg : value x < 0) (hsmall : |value x| < 2 ^ 23)
    (hwhole : IsWhole (wholePart x) (-⌈value x⌉)) :
    IsWhole (if wholePart x == x.abs then -wholePart x else -(wholePart x + 1)) ⌊value x⌋ := by
  have hequal : (wholePart x == x.abs) = true ↔ (⌈value x⌉ : ℝ) = value x := by
    rw [beq_iff, and_iff_right ⟨hwhole.1, isNumber_abs.mpr hx⟩, ← value_eq_value_iff,
      hwhole.value_eq, value_abs, abs_of_neg hneg, Int.cast_neg, neg_inj]
  split_ifs with h
  · rw [← hequal.mp h, Int.floor_intCast]
    simpa using hwhole.neg
  · have hfraction : ⌈value x⌉ = ⌊value x⌋ + 1 := by
      rw [Int.ceil_eq_floor_add_one_iff_notMem]
      rintro ⟨k, hk⟩
      exact h (hequal.mpr (by rw [← hk, Int.ceil_intCast]))
    have hrange : (-⌈value x⌉).natAbs ≤ 2 ^ 23 := by
      have hlow : ((-(2 ^ 23) : ℤ) : ℝ) < ⌈value x⌉ := by
        rw [abs_of_neg hneg] at hsmall
        push_cast
        linarith [Int.le_ceil (value x)]
      have hhigh : ⌈value x⌉ ≤ 0 := Int.ceil_le.mpr (by exact_mod_cast hneg.le)
      have := Int.cast_lt.mp hlow
      omega
    have hsum := hwhole.add isWhole_one (hwhole.isFinite (by omega))
      (isWhole_one.isFinite (by decide)) (by omega)
    rw [show ⌊value x⌋ = -(-⌈value x⌉ + 1) by omega]
    exact hsum.neg

/-- The floor of a single is the floor of the number it stands for. -/
lemma isWhole_floor (hx : IsNumber x) : IsWhole (floor x) ⌊value x⌋ := by
  rw [floor]
  by_cases hsmall : x.abs < wholeFrom
  · have hbelow := (abs_lt_wholeFrom_iff hx).mp hsmall
    have hwhole := isWhole_wholePart hbelow
    rw [if_pos hsmall]
    by_cases hneg : x < 0
    · have hsign := (lt_iff_value hx isNumber_zero).mp hneg
      rw [value_zero] at hsign
      rw [abs_of_neg hsign, Int.floor_neg] at hwhole
      rw [if_pos hneg]
      exact isWhole_floor_neg hx hsign hbelow hwhole
    · have hsign := not_lt.mp ((lt_iff_value hx isNumber_zero).not.mp hneg)
      rw [value_zero] at hsign
      rw [abs_of_nonneg hsign] at hwhole
      rwa [if_neg hneg]
  · rw [if_neg hsmall]
    refine isWhole_of_large hx ?_
    rw [abs_lt_wholeFrom_iff hx, not_lt, ← value_abs, value, le_div_iff₀ one_pos,
      units_abs] at hsmall
    exact_mod_cast hsmall

/-- The ceiling of a single is the ceiling of the number it stands for. -/
lemma isWhole_ceil (hx : IsNumber x) : IsWhole (ceil x) ⌈value x⌉ := by
  have hfloor := (isWhole_floor (isNumber_neg.mpr hx)).neg
  rwa [value_neg, Int.floor_neg, neg_neg] at hfloor

/-- A whole number that is not too large is taken back from a word. -/
lemma IsWhole.toNat_eq (hx : IsWhole x k) (hk : 0 ≤ k) (hk' : k < 2 ^ 24) :
    toNat x = k.toNat := by
  refine toNat_of_units ?_ (by rw [UInt64.size]; omega)
  rw [Int.toNat_of_nonneg hk]
  exact hx.2

/-! ### Choices -/

lemma value_min (ha : IsNumber a) (hb : IsNumber b) :
    IsNumber (Scalar.min a b) ∧ value (Scalar.min a b) = min (value a) (value b) := by
  rw [Scalar.min]
  split_ifs with hle hdefined
  · rw [min_eq_left ((le_iff_value ha hb).mp hle)]
    exact ⟨ha, rfl⟩
  · rw [le_iff_value ha hb, not_le] at hle
    rw [min_eq_right hle.le]
    exact ⟨hb, rfl⟩
  · exact absurd (isDefined_iff.mpr hb) hdefined

lemma value_max (ha : IsNumber a) (hb : IsNumber b) :
    IsNumber (Scalar.max a b) ∧ value (Scalar.max a b) = max (value a) (value b) := by
  rw [Scalar.max]
  split_ifs with hle hdefined
  · rw [max_eq_left ((le_iff_value hb ha).mp hle)]
    exact ⟨ha, rfl⟩
  · rw [le_iff_value hb ha, not_le] at hle
    rw [max_eq_right hle.le]
    exact ⟨hb, rfl⟩
  · exact absurd (isDefined_iff.mpr hb) hdefined

/-- Holding a number between bounds takes the nearest number between them. -/
lemma value_clamp {lo hi : Float32} (hx : IsNumber x) (hlo : IsNumber lo) (hhi : IsNumber hi)
    (hle : value lo ≤ value hi) :
    IsNumber (Scalar.clamp x lo hi) ∧
      value (Scalar.clamp x lo hi) = max (value lo) (min (value x) (value hi)) := by
  rw [Scalar.clamp]
  split_ifs with hlow hhigh
  · rw [lt_iff_value hx hlo] at hlow
    rw [max_eq_left ((min_le_left _ _).trans hlow.le)]
    exact ⟨hlo, rfl⟩
  · rw [lt_iff_value hhi hx] at hhigh
    rw [min_eq_right hhigh.le, max_eq_right hle]
    exact ⟨hhi, rfl⟩
  · rw [lt_iff_value hx hlo, not_lt] at hlow
    rw [lt_iff_value hhi hx, not_lt] at hhigh
    rw [min_eq_left hhigh, max_eq_right hlow]
    exact ⟨hx, rfl⟩

end Single

end Sightline
