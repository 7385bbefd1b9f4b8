import Mathlib.Tactic
import Sightline.Proofs.Decimal.Rounding
import Sightline.Proofs.Single.Bits

/-!
# Conversions between formats

A number that a format holds is converted to that format without loss. Every single is held as a
double, so it can be kept as one and taken back.
-/

namespace Sightline

open BinaryFormat Shortest

namespace BinaryFormat

variable {f : BinaryFormat} {m m' : ℕ} {q q' : ℤ}

/-- A number lies in the interval around it. -/
lemma contains_self (hm : 0 < m) :
    (interval f m q).Contains (m * 2 ^ q / 2 ^ (q - 2)) := by
  have hvalue : (m : ℚ) * 2 ^ q / 2 ^ (q - 2) = 4 * m := by
    rw [zpow_sub₀ two_ne_zero]
    field_simp
    norm_num
  have hlower : ((interval f m q).lower : ℚ) < 4 * m := by
    have hlower : (interval f m q).lower < 4 * m := by
      unfold interval
      dsimp only
      split <;> omega
    exact_mod_cast hlower
  have hupper : (4 * m : ℚ) < (interval f m q).upper := by
    rw [interval_upper]
    linarith
  rw [hvalue]
  exact ⟨hlower.le, hupper.le, fun _ => ⟨hlower, hupper⟩⟩

/-- A number that a format holds is converted to its pattern, in whatever form it is given. -/
theorem Holds.convert_eq (h : f.Holds m q) (hvalue : (m' : ℚ) * 2 ^ q' = m * 2 ^ q)
    (negative : Bool) :
    f.convert (.finite negative m' q') = f.withSign negative (f.pattern m q) := by
  have hpower (e : ℤ) : (2 : ℚ) ^ e ≠ 0 := zpow_ne_zero _ two_ne_zero
  have hquotient : ((m' * powerUp 2 q' : ℕ) : ℚ) / powerDown 2 q' = m * 2 ^ q :=
    (cast_mul_power two_pos m' q').trans hvalue
  rw [convert]
  congr 1
  rcases Nat.eq_zero_or_pos m with rfl | hm
  · have hzero : m' = 0 := by
      rw [Nat.cast_zero, zero_mul] at hvalue
      exact_mod_cast (mul_eq_zero.mp hvalue).resolve_right (hpower q')
    rw [h.pattern_zero, roundQuotient, if_pos (Or.inl (by rw [hzero, Nat.zero_mul]))]
  · refine h.roundQuotient_eq hm (powerDown_pos two_pos q') ?_
    rw [hquotient]
    exact contains_self hm

/-- Every single is held as a double. -/
theorem exists_double (h : single.Holds m q) :
    ∃ m' q', double.Holds m' q' ∧ (m' : ℚ) * 2 ^ q' = m * 2 ^ q := by
  have hfraction : double.fractionBits = 52 := rfl
  have hexponent : double.leastExponent = -1074 := rfl
  rcases Nat.eq_zero_or_pos m with rfl | hm
  · refine ⟨0, -1074, ⟨by rw [hexponent], by decide, Or.inl rfl, by decide⟩, by simp⟩
  · have hbits : m.log2 ≤ 23 := Nat.le_of_lt_succ ((Nat.log2_lt hm.ne').mpr h.lt)
    have hlow : 2 ^ m.log2 ≤ m := Nat.log2_self_le hm.ne'
    have hhigh : m < 2 ^ (m.log2 + 1) := Nat.lt_log2_self
    obtain ⟨shift, hshift⟩ := Nat.exists_eq_add_of_le (hbits.trans (by norm_num : 23 ≤ 52))
    have hleading : 2 ^ 52 ≤ m * 2 ^ shift := by
      rw [hshift, pow_add]
      exact Nat.mul_le_mul_right _ hlow
    have hlt : m * 2 ^ shift < 2 ^ 53 := by
      rw [show 53 = m.log2 + 1 + shift by omega, pow_add]
      exact Nat.mul_lt_mul_of_pos_right hhigh (Nat.two_pow_pos _)
    have hleast := h.least
    have hgreatest := h.exponent_lt
    have hsingle : single.leastExponent = -149 := rfl
    have htop : single.topField = 255 := rfl
    refine ⟨m * 2 ^ shift, q - shift, ⟨by omega, hlt, Or.inr hleading, ?_⟩, ?_⟩
    · have hfield : (q - shift - double.leastExponent).toNat + 2 ≤ 2047 := by omega
      have hinfinity : double.infinityBits = 2047 * 2 ^ 52 := rfl
      rw [pattern, hinfinity, hfraction]
      omega
    · push_cast
      rw [zpow_sub₀ two_ne_zero, zpow_natCast]
      field_simp

end BinaryFormat

/-! ### Singles -/

namespace Single

variable {x : Float32}

open Float.Model in
/-- What is decoded to no number is the one single that is none. -/
lemma eq_nan_of_decode (h : BinaryNumber.ofSingle x = .nan) : x = Float32.ofBits 0x7fc00000 := by
  let b : BitVec Format.binary32.numBits := x.toBits.toBitVec
  obtain ⟨hfield, hfraction⟩ : b.toNat / 2 ^ 23 % 2 ^ 8 = 255 ∧ b.toNat % 2 ^ 23 ≠ 0 := by
    unfold BinaryNumber.ofSingle decode at h
    dsimp only at h
    split at h
    next hfield =>
      split at h
      · cases h
      next hfraction => exact ⟨hfield, hfraction⟩
    next => split at h <;> cases h
  have hexponent : UnpackedFloat.unpackExponent b = (-1#8) := by
    refine BitVec.eq_of_toNat_eq ?_
    rw [toNat_unpackExponent]
    exact hfield
  have hmantissa : UnpackedFloat.unpackMantissa b ≠ 0#23 := by
    intro hzero
    have hzero := congrArg BitVec.toNat hzero
    rw [toNat_unpackMantissa] at hzero
    exact hfraction hzero
  have hnan := x.toModel.valid.eq_packedNaN hexponent hmantissa
  exact ext_bits (UInt32.eq_of_toBitVec_eq hnan)

/-- A single that is a number does not have a pattern that stands for none. -/
lemma ofSingle_ne_nan (hx : Scalar.isDefined x = true) : BinaryNumber.ofSingle x ≠ .nan := by
  intro h
  have hnan : Scalar.isDefined (Float32.ofBits 0x7fc00000) = false := by decide +kernel
  rw [eq_nan_of_decode h, hnan] at hx
  cases hx

/-- A single that is a number is encoded by its bits. -/
lemma encodes_ofSingle (hx : Scalar.isDefined x = true) :
    single.Encodes (BinaryNumber.ofSingle x) x.toBits.toNat :=
  encodes_decode (x.toBits.toNat_lt.trans_eq (by rfl)) (ofSingle_ne_nan hx)

lemma toSingle_of_convert {n : BinaryNumber} (h : single.convert n = x.toBits.toNat) :
    n.toSingle = x := by
  rw [BinaryNumber.toSingle, h, UInt32.ofNat_toNat, ofBits_toBits]

/-- A single is kept as a double and taken back without loss. -/
theorem roundTo_double (hx : Scalar.isDefined x = true) :
    ∃ bits, double.Encodes ((BinaryNumber.ofSingle x).roundTo double) bits ∧
      ((BinaryNumber.ofSingle x).roundTo double).toSingle = x := by
  have hencodes := encodes_ofSingle hx
  rw [BinaryNumber.roundTo]
  generalize BinaryNumber.ofSingle x = n at hencodes ⊢
  generalize hbits : x.toBits.toNat = bits at hencodes
  cases hencodes with
  | infinity negative =>
    have hdouble := Encodes.infinity (f := double) negative
    refine ⟨double.withSign negative double.infinityBits, ?_, toSingle_of_convert ?_⟩
    · rw [convert, hdouble.decode_eq]
      exact hdouble
    · rw [convert, hdouble.decode_eq, convert, hbits]
  | @finite negative m q holds =>
    obtain ⟨m', q', holds', hvalue⟩ := exists_double holds
    have hdouble := Encodes.finite negative holds'
    have hkept : double.convert (.finite negative m q) =
        double.withSign negative (double.pattern m' q') := holds'.convert_eq hvalue.symm negative
    refine ⟨double.withSign negative (double.pattern m' q'), ?_, toSingle_of_convert ?_⟩
    · rw [hkept, hdouble.decode_eq]
      exact hdouble
    · rw [hkept, hdouble.decode_eq, holds.convert_eq hvalue, hbits]

end Single

end Sightline
