import Mathlib.Tactic
import Sightline.Proofs.Single.Order

/-!
# Neutral operands

A zero of either sign leaves a sum as it is and makes a product zero, and dividing by one changes
nothing, as long as what comes out is a number. What a zero is added to keeps its value, so that
adding something that is not negative never leads below it.
-/

namespace Sightline

namespace Single

open Float.Model (Format UnpackedFloat totalExponent)
open Float.Model.UnpackedFloat

variable {a b : Float32}

/-! ### Zero -/

lemma units_zero_add (h : IsNumber (a + b)) (ha : units a = 0) : units (a + b) = units b := by
  have hreach := reach_pos
  obtain ⟨haNumber, hbNumber⟩ := h.of_add
  rcases hbNumber.cases with hfinite | ⟨s, hs⟩
  · rw [(add_finite ⟨haNumber, by omega⟩ hfinite).2, ha, zero_add]
    exact hfinite.roundedSigned_units
  · rw [add_comm_single] at h ⊢
    rw [units_infinity_add h hs, units_of_infinity hs]

lemma add_zero_single (ha : IsNumber a) : IsNumber (a + 0) ∧ units (a + 0) = units a := by
  have hnumber : IsNumber (a + 0) := isNumber_add ha ⟨isNumber_zero, reach_pos⟩
  refine ⟨hnumber, ?_⟩
  rw [add_comm_single] at hnumber ⊢
  exact units_zero_add hnumber units_zero

lemma le_add_of_nonneg_single (h : IsNumber (a + b)) (hb : 0 ≤ b) : a ≤ a + b := by
  obtain ⟨hnumber, hunits⟩ := add_zero_single h.of_add.1
  exact le_trans_single (le_of_units h.of_add.1 hnumber hunits.ge)
    (add_le_add_single hnumber h (le_refl_single h.of_add.1) hb)

lemma add_le_of_nonpos_single (h : IsNumber (a + b)) (hb : b ≤ 0) : a + b ≤ a := by
  obtain ⟨hnumber, hunits⟩ := add_zero_single h.of_add.1
  exact le_trans_single (add_le_add_single h hnumber (le_refl_single h.of_add.1) hb)
    (le_of_units hnumber h.of_add.1 hunits.le)

lemma units_zero_sub_zero (h : IsNumber (a - b)) (ha : units a = 0) (hb : units b = 0) :
    units (a - b) = 0 := by
  rw [sub_eq_add_neg] at h ⊢
  rw [units_zero_add h ha, units_neg, hb, neg_zero]

lemma units_zero_mul (h : IsNumber (a * b)) (ha : units a = 0) : units (a * b) = 0 := by
  have hmodel := toModel_mul a b
  obtain ⟨s, hs⟩ := zero_of_units_eq_zero h.of_mul.1 ha
  have hbNumber := h.of_mul.2
  rw [hs] at hmodel
  rcases hbNumber.cases with hfinite | ⟨s', hs'⟩
  · have hzero := mul_finite (a := a) (b := b) ⟨h.of_mul.1, by rw [ha]; exact reach_pos⟩ hfinite
    rw [hzero.2, ha, zero_mul, Int.cast_zero, zero_div, roundedSigned_of_nonneg le_rfl, rounded_zero]
    rfl
  · rw [hs'] at hmodel
    exact absurd h (not_isNumber_of_pack hmodel)

/-! ### One -/

/-- Dividing by one leaves a mantissa as it is. -/
lemma yields_div_one_finite {s : Sign} {m : ℕ} {e : ℤ} {hm : 0 < m}
    (hu : Canonical (.finite s m e hm)) :
    Yields (UnpackedFloat.div Format.binary32 (.finite s m e hm)
      (.finite .positive (2 ^ 23) (-23) (Nat.two_pow_pos 23))) (s.apply (magnitude m e)) := by
  obtain ⟨hbits, hlow, hhigh, hnormal⟩ := hu
  set t : ℤ := min (e - -23) (Format.binary32.targetExponent
    (totalExponent m e - totalExponent (2 ^ 23) (-23))) with ht
  have htotal : totalExponent (2 ^ 23) (-23) = 1 := by
    rw [totalExponent, Nat.log2_two_pow]
    rfl
  have hchosen : t = min (e + 23) (max (m.log2 + 1 + e - 1 - 24) (-149)) := by
    rw [ht, htotal]
    rfl
  have hlog : m.log2 < 24 := (Nat.log2_lt hm.ne').mpr hbits
  have hle : t ≤ e := by omega
  set k : ℕ := (e - t).toNat with hk
  have hshift : (e - -23 - t).toNat = k + 23 := by omega
  have hsplit : m <<< (k + 23) = m <<< k * 2 ^ 23 := by
    rw [Nat.shiftLeft_eq, Nat.shiftLeft_eq, pow_add, mul_assoc]
  have hcore : divCore Format.binary32 m e (2 ^ 23) (-23) = (m <<< k, t, .exact) := by
    simp only [divCore, ← ht, hshift, hsplit, Nat.mul_mod_left, accuracyOfFraction]
    rw [Nat.mul_div_cancel _ (Nat.two_pow_pos 23)]
    rfl
  have hpos : 0 < m <<< k := by
    rw [Nat.shiftLeft_eq]
    exact Nat.mul_pos hm (Nat.two_pow_pos k)
  have hroom : t ≤ max ((m <<< k).log2 + 1 + t - 24) (-149) := by
    rw [log2_shiftLeft hm]
    omega
  have hvalue : ((m <<< k : ℕ) : ℝ) * 2 ^ (t + 149) = (magnitude m e : ℕ) := by
    rw [cast_magnitude m hlow, Nat.shiftLeft_eq, Nat.cast_mul, ← two_zpow_natCast k k rfl, mul_assoc,
      ← zpow_add₀ two_ne_zero]
    congr 2
    omega
  have hround := yields_roundWithAccuracy s hpos (holds_exact (m <<< k)) hroom
  rw [hvalue, rounded_of_exact (exact_magnitude hbits hhigh)] at hround
  have hsign : s / .positive = s := by cases s <;> rfl
  simp only [UnpackedFloat.div, hcore, hsign]
  exact hround

lemma units_div_one (a : Float32) : units (a / 1) = units a := by
  have hmodel : (a / 1).toModel = Float32.Model.pack (UnpackedFloat.div Format.binary32
      a.toModel.unpack (.finite .positive (2 ^ 23) (-23) (Nat.two_pow_pos 23))) := rfl
  have hcanonical := canonical a
  rw [units.eq_1 a]
  cases hunpacked : a.toModel.unpack with
  | notANumber =>
    rw [hunpacked] at hmodel
    rw [units, hmodel]
    rfl
  | zero s =>
    rw [hunpacked] at hmodel
    exact ((stands_zero _).yields.of_pack hmodel).2
  | infinity s =>
    rw [hunpacked] at hmodel
    have hsign : s / .positive = s := by cases s <;> rfl
    rw [UnpackedFloat.div, hsign] at hmodel
    exact ((yields_infinity s).of_pack hmodel).2
  | finite s m e hm =>
    rw [hunpacked] at hmodel hcanonical
    exact ((yields_div_one_finite hcanonical).of_pack hmodel).2

end Single

end Sightline
