import Mathlib.Tactic
import Sightline.Proofs.Single.Exact

/-!
# The order of bit patterns

Without their signs, the patterns of numbers stand in the order of the numbers, up to that of
infinity, and all patterns after it stand for no number.
-/

namespace Sightline

namespace Single

open Float.Model (Format UnpackedFloat)
open Float.Model.UnpackedFloat

/-! ### Patterns without their signs -/

/-- The number of units that a pattern without its sign stands for. -/
def patternUnits (n : ℕ) : ℕ :=
  if n < 2 ^ 23 then n else (2 ^ 23 + n % 2 ^ 23) * 2 ^ (n / 2 ^ 23 - 1)

/-- The pattern of infinity. -/
def infinityPattern : ℕ := 255 * 2 ^ 23

lemma patternUnits_infinityPattern : patternUnits infinityPattern = reach := by decide +kernel

lemma patternUnits_le_succ (n : ℕ) : patternUnits n ≤ patternUnits (n + 1) := by
  rcases lt_or_ge n (2 ^ 23) with hlow | hhigh
  · rcases eq_or_ne (n + 1) (2 ^ 23) with hnext | hnext
    · rw [patternUnits, if_pos hlow, hnext]
      exact hlow.le
    · rw [patternUnits, if_pos hlow, patternUnits, if_pos (by omega)]
      exact Nat.le_succ n
  rw [patternUnits, if_neg hhigh.not_gt, patternUnits, if_neg (by omega)]
  by_cases hfull : n % 2 ^ 23 = 2 ^ 23 - 1
  · -- the fraction starts again at zero, and the exponent field grows by one
    have hexponent : (n + 1) / 2 ^ 23 - 1 = n / 2 ^ 23 - 1 + 1 := by omega
    calc (2 ^ 23 + n % 2 ^ 23) * 2 ^ (n / 2 ^ 23 - 1)
        ≤ 2 ^ 23 * 2 * 2 ^ (n / 2 ^ 23 - 1) := Nat.mul_le_mul_right _ (by omega)
      _ = 2 ^ 23 * 2 ^ ((n + 1) / 2 ^ 23 - 1) := by 
        rw [hexponent, pow_succ' 2 (n / 2 ^ 23 - 1), mul_assoc]
      _ ≤ (2 ^ 23 + (n + 1) % 2 ^ 23) * 2 ^ ((n + 1) / 2 ^ 23 - 1) :=
        Nat.mul_le_mul_right _ (Nat.le_add_right _ _)
  · have hexponent : (n + 1) / 2 ^ 23 = n / 2 ^ 23 := by omega
    rw [hexponent]
    exact Nat.mul_le_mul_right _ (by omega)

lemma patternUnits_mono : Monotone patternUnits := monotone_nat_of_le_succ patternUnits_le_succ

/-- Below the leading bit a pattern counts its units. -/
lemma patternUnits_of_lt {n : ℕ} (h : n < 2 ^ 23) : patternUnits n = magnitude n (-149) := by
  rw [patternUnits, if_pos h]
  exact (Nat.mul_one n).symm

lemma patternUnits_of_ge {n : ℕ} (h : 2 ^ 23 ≤ n) :
    patternUnits n = magnitude (2 ^ 23 + n % 2 ^ 23) ((n / 2 ^ 23 : ℕ) - (127 + 23)) := by
  have hexponent : (((n / 2 ^ 23 : ℕ) : ℤ) - (127 + 23) + 149).toNat = n / 2 ^ 23 - 1 := by omega
  rw [patternUnits, if_neg h.not_gt, magnitude, hexponent]

/-! ### Patterns -/

/-- The first bit of a pattern is its sign. -/
lemma ofBitVec_unpackSign (b : BitVec Format.binary32.numBits) :
    Sign.ofBitVec (unpackSign b) = if b.toNat < 2 ^ 31 then .positive else .negative := by
  have hrange : b.toNat < 2 ^ 32 := b.isLt
  have hsign : unpackSign b = 0#1 ↔ b.toNat < 2 ^ 31 := by
    rw [← BitVec.toNat_inj, toNat_unpackSign, BitVec.toNat_ofNat]
    omega
  rw [Sign.ofBitVec]
  simp only [hsign]

/-- The numbers are the patterns up to that of infinity, and their units are those of the pattern
under its sign. -/
lemma unpack_pattern (b : BitVec Format.binary32.numBits) {n : ℕ} (hn : b.toNat % 2 ^ 31 = n) :
    (UnpackedFloat.unpack Format.binary32 b ≠ .notANumber ↔ n ≤ infinityPattern) ∧
    (n ≤ infinityPattern → unitsOf (UnpackedFloat.unpack Format.binary32 b) =
      (Sign.ofBitVec (unpackSign b)).apply (patternUnits n)) := by
  have hbias : (Format.binary32.exponentBias : ℤ) = 127 := rfl
  have hbits : (Format.binary32.mantissaBitsWithoutImplicit : ℤ) = 23 := rfl
  have hfield : (unpackExponent b).toNat = n / 2 ^ 23 := by
    rw [toNat_unpackExponent]
    omega
  have hfraction : (unpackMantissa b).toNat = n % 2 ^ 23 := by
    rw [toNat_unpackMantissa]
    omega
  rw [UnpackedFloat.unpack]
  split
  next htop =>
    have htop : (unpackExponent b).toNat = 255 := congrArg BitVec.toNat htop
    split
    next hzero =>
      have hzero : (unpackMantissa b).toNat = 0 := congrArg BitVec.toNat hzero
      obtain rfl : n = infinityPattern := by rw [infinityPattern]; omega
      rw [patternUnits_infinityPattern]
      exact ⟨by simp, fun _ => rfl⟩
    next hnonzero =>
      have hpos : (unpackMantissa b).toNat ≠ 0 := fun h => hnonzero (BitVec.eq_of_toNat_eq h)
      have hlarge : ¬ n ≤ infinityPattern := by rw [infinityPattern]; omega
      simp [hlarge]
  next htop =>
    have htop : (unpackExponent b).toNat ≠ 255 := fun h => htop (BitVec.eq_of_toNat_eq h)
    have hle : n ≤ infinityPattern := by rw [infinityPattern]; omega
    split
    next hlow =>
      have hlow : (unpackExponent b).toNat = 0 := congrArg BitVec.toNat hlow
      have hunits : patternUnits n = magnitude (unpackMantissa b).toNat (-149) := by
        rw [patternUnits_of_lt (by omega), hfraction, Nat.mod_eq_of_lt (by omega)]
      rw [hunits]
      split
      next hzero =>
        have hzero : (unpackMantissa b).toNat = 0 := congrArg BitVec.toNat hzero
        rw [hzero]
        refine ⟨by simp [hle], fun _ => ?_⟩
        cases Sign.ofBitVec (unpackSign b) <;> rfl
      next =>
        refine ⟨by simp [hle], fun _ => ?_⟩
        rw [unitsOf, hlow, hbias, hbits]
        rfl
    next hlow =>
      have hlow : (unpackExponent b).toNat ≠ 0 := fun h => hlow (BitVec.eq_of_toNat_eq h)
      refine ⟨by simp [hle], fun _ => ?_⟩
      rw [patternUnits_of_ge (by omega), unitsOf, hbias, hbits, toNat_one_append, hfraction, hfield]

/-- What is taken apart is put together again without loss. -/
lemma unpack_ofBits (bits : UInt32) :
    (Float32.ofBits bits).toModel.unpack = UnpackedFloat.unpack Format.binary32 bits.toBitVec :=
  unpack_pack (canonical_unpack _)

lemma isNumber_ofBits {bits : UInt32} :
    IsNumber (Float32.ofBits bits) ↔ bits.toNat % 2 ^ 31 ≤ infinityPattern := by
  rw [IsNumber, unpack_ofBits]
  exact (unpack_pattern bits.toBitVec rfl).1

lemma units_ofBits {bits : UInt32} (h : IsNumber (Float32.ofBits bits)) :
    units (Float32.ofBits bits) = if bits.toNat < 2 ^ 31 then (patternUnits bits.toNat : ℤ)
      else -patternUnits (bits.toNat - 2 ^ 31) := by
  have hrange : bits.toNat < 2 ^ 32 := bits.toNat_lt
  have hunits := (unpack_pattern bits.toBitVec rfl).2 (isNumber_ofBits.mp h)
  rw [units, unpack_ofBits, hunits, ofBitVec_unpackSign, UInt32.toNat_toBitVec]
  split_ifs with hpositive
  · rw [Nat.mod_eq_of_lt hpositive, Sign.apply]
  · rw [show bits.toNat % 2 ^ 31 = bits.toNat - 2 ^ 31 by omega, Sign.apply]

end Single

end Sightline
