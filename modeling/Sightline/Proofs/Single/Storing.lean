import Mathlib.Analysis.SpecialFunctions.Sqrt
import Mathlib.Tactic
import Sightline.Proofs.Single.Rounding

/-!
# Storing results

The result of an operation is found as a mantissa with an exponent and what is known of the bits after
the mantissa. It is stored as the single nearest to it, or as an infinity where it is too large.
-/

namespace Sightline

namespace Single

open Float.Model (Format UnpackedFloat totalExponent)
open Float.Model.UnpackedFloat

variable {x : ℝ} {m : ℕ} {e : ℤ}

/-! ### Stored mantissas -/

/-- The bits that are too many are those by which the least exponent that a mantissa can have is
missed. -/
lemma spareBits_scaled {k : ℕ} (hlow : 2 ^ k ≤ x) (hhigh : x < 2 ^ (k + 1)) (e : ℤ) :
    (spareBits (x * 2 ^ (e + 149)) : ℤ) = max (k + 1 + e - 24) (-149) + 149 := by
  have hscale : (0 : ℝ) < 2 ^ (e + 149) := zpow_pos (by norm_num) _
  have hpower (j : ℕ) : (2 : ℝ) ^ j * 2 ^ (e + 149) = 2 ^ (j + (e + 149)) := by
    rw [← zpow_natCast, ← zpow_add₀ two_ne_zero]
  have hlow' := mul_le_mul_of_nonneg_right hlow hscale.le
  have hhigh' := mul_lt_mul_of_pos_right hhigh hscale
  rw [hpower] at hlow' hhigh'
  rcases le_or_gt 0 (k + (e + 149)) with hnonneg | hneg
  · obtain ⟨j, hj⟩ := Int.eq_ofNat_of_zero_le hnonneg
    rw [hj, zpow_natCast] at hlow'
    rw [show ((k + 1 : ℕ) : ℤ) + (e + 149) = ((j + 1 : ℕ) : ℤ) by omega, zpow_natCast] at hhigh'
    have hfloor : 2 ^ j ≤ ⌊x * 2 ^ (e + 149)⌋₊ := Nat.le_floor (by exact_mod_cast hlow')
    have hfloor' : ⌊x * 2 ^ (e + 149)⌋₊ < 2 ^ (j + 1) :=
      (Nat.floor_lt' (Nat.two_pow_pos _).ne').mpr (by exact_mod_cast hhigh')
    have hlog : ⌊x * 2 ^ (e + 149)⌋₊.log2 = j :=
      (Nat.log2_eq_iff (by omega)).mpr ⟨hfloor, hfloor'⟩
    rw [spareBits, hlog]
    omega
  · have hone : x * 2 ^ (e + 149) < 1 :=
      hhigh'.trans_le (zpow_le_one_of_nonpos₀ one_le_two (by omega))
    rw [spareBits, Nat.floor_eq_zero.mpr hone, Nat.log2_zero]
    omega

/-- Stored, it is a given number of units. -/
structure Yields (u : UnpackedFloat) (z : ℤ) : Prop where
  /-- It is a number. -/
  isNumber : UnpackedFloat.unpack Format.binary32 (UnpackedFloat.pack Format.binary32 u) ≠
    .notANumber
  /-- The number of units. -/
  units_eq : unitsOf (UnpackedFloat.unpack Format.binary32
    (UnpackedFloat.pack Format.binary32 u)) = z

lemma Yields.of_pack {a : Float32} {u : UnpackedFloat} {z : ℤ} (h : Yields u z)
    (ha : a.toModel = Float32.Model.pack u) : IsNumber a ∧ units a = z := by
  rw [IsNumber, units, ha]
  exact ⟨h.isNumber, h.units_eq⟩

lemma Stands.yields {u : UnpackedFloat} {z : ℤ} (h : Stands u z) : Yields u z := by
  have hunpack := unpack_pack h.canonical
  exact ⟨hunpack.symm ▸ h.isNumber, hunpack.symm ▸ h.units_eq⟩

lemma yields_infinity (s : Sign) : Yields (.infinity s) (s.apply reach) := by
  refine Stands.yields ⟨trivial, by simp, rfl⟩

/-- Where the exponent is too large for a single, an infinity is stored. -/
lemma yields_finite (s : Sign) (hm : 0 < m) (hbits : m < 2 ^ 24) (he : -149 ≤ e)
    (hnormal : 2 ^ 23 ≤ m ∨ e = -149) :
    Yields (.finite s m e hm) (s.apply (min reach (magnitude m e) : ℕ)) := by
  rcases le_or_gt e 104 with hfits | hlarge
  · rw [min_eq_right (magnitude_lt_reach hbits hfits).le]
    exact Stands.yields ⟨⟨hbits, he, hfits, hnormal⟩, by simp, rfl⟩
  · have hreach : reach ≤ magnitude m e := by
      calc reach = 2 ^ 23 * 2 ^ 254 := by rw [reach, one, ← pow_add, ← pow_add]
        _ ≤ m * 2 ^ (e + 149).toNat :=
          Nat.mul_le_mul (hnormal.resolve_right (by omega))
            (Nat.pow_le_pow_right Nat.zero_lt_two (by omega))
    have hpack : UnpackedFloat.pack Format.binary32 (.finite s m e hm) =
        UnpackedFloat.pack Format.binary32 (.infinity s) := by
      have hbias : (Format.binary32.exponentBias : ℤ) = 127 := rfl
      have hfraction : (Format.binary32.mantissaBitsWithoutImplicit : ℤ) = 23 := rfl
      have htop : 2 ^ Format.binary32.exponentBits ≤ (e + (Format.binary32.exponentBias : ℕ) +
          (Format.binary32.mantissaBitsWithoutImplicit : ℕ)).toNat + 1 := by
        change 256 ≤ _
        omega
      rw [UnpackedFloat.pack, UnpackedFloat.pack]
      exact if_pos htop
    rw [min_eq_left hreach]
    have hinfinity := yields_infinity s
    exact ⟨hpack.symm ▸ hinfinity.isNumber, hpack.symm ▸ hinfinity.units_eq⟩

lemma targetExponent_max (m : ℕ) (e : ℤ) :
    Format.binary32.targetExponent (totalExponent m e) = max (m.log2 + 1 + e - 24) (-149) := rfl

lemma shiftToTargetExponent_mantissa (m : ℕ) (e : ℤ) (accuracy : Accuracy) :
    (shiftToTargetExponent Format.binary32 m e accuracy).1.mantissa =
      m / 2 ^ (max (m.log2 + 1 + e - 24) (-149) - e).toNat := by
  have hmantissa : (ExtendedMantissa.ofMantissaAndAccuracy m accuracy).mantissa = m := by
    unfold ExtendedMantissa.ofMantissaAndAccuracy
    split <;> rfl
  exact (mantissa_shiftRight _ _).trans (by rw [hmantissa, targetExponent_max])

/-- A mantissa that was rounded up to one bit more loses nothing when it is shifted by it. -/
lemma yields_carried (s : Sign) (hbits : m ≤ 2 ^ 24) (he : -149 ≤ e)
    (hnormal : 2 ^ 23 ≤ m ∨ e = -149) :
    Yields (if h : (shiftToTargetExponent Format.binary32 m e .exact).1.mantissa = 0 then .zero s
      else .finite s (shiftToTargetExponent Format.binary32 m e .exact).1.mantissa
        (shiftToTargetExponent Format.binary32 m e .exact).2 (Nat.pos_of_ne_zero h))
      (s.apply (min reach (magnitude m e) : ℕ)) := by
  have hexponent : (shiftToTargetExponent Format.binary32 m e .exact).2 =
      e + (max (m.log2 + 1 + e - 24) (-149) - e).toNat := rfl
  have hmantissa := shiftToTargetExponent_mantissa m e .exact
  rcases Nat.eq_zero_or_pos m with rfl | hm
  · rw [dif_pos (hmantissa.trans (Nat.zero_div _))]
    have hzero := (stands_zero s).yields
    cases s <;> simpa [magnitude, Sign.apply] using hzero
  rcases hbits.lt_or_eq with hlt | rfl
  · have hlog : m.log2 < 24 := (Nat.log2_lt hm.ne').mpr hlt
    have hshift : (max ((m.log2 : ℤ) + 1 + e - 24) (-149) - e).toNat = 0 := by omega
    rw [hshift, pow_zero, Nat.div_one] at hmantissa
    rw [hshift, Nat.cast_zero, add_zero] at hexponent
    simp only [hmantissa, hexponent, dif_neg hm.ne']
    exact yields_finite s hm hlt he hnormal
  · have hshift : (max (((2 ^ 24 : ℕ).log2 : ℤ) + 1 + e - 24) (-149) - e).toNat = 1 := by
      rw [Nat.log2_two_pow]
      omega
    rw [hshift] at hmantissa hexponent
    have hhalf : (2 ^ 24 : ℕ) / 2 ^ 1 = 2 ^ 23 := by norm_num
    have hunits : magnitude (2 ^ 23) (e + 1) = magnitude (2 ^ 24) e := by
      rw [magnitude, magnitude, show (e + 1 + 149).toNat = (e + 149).toNat + 1 by omega, pow_succ]
      ring
    simp only [hmantissa, hexponent, hhalf, dif_neg (Nat.two_pow_pos 23).ne']
    rw [← hunits]
    exact yields_finite s (Nat.two_pow_pos 23) (by norm_num) (by omega) (.inl le_rfl)

/-- The result of an operation that is known up to the bits after its mantissa is stored as the
single nearest to it, as long as the mantissa has all the bits that are kept. -/
lemma yields_roundWithAccuracy (s : Sign) (hm : 0 < m) {accuracy : Accuracy}
    (hx : Holds (ExtendedMantissa.ofMantissaAndAccuracy m accuracy) x)
    (he : e ≤ max (m.log2 + 1 + e - 24) (-149)) :
    Yields (roundWithAccuracy Format.binary32 s m e accuracy)
      (s.apply (rounded (x * 2 ^ (e + 149)))) := by
  set t : ℤ := max (m.log2 + 1 + e - 24) (-149) with ht
  have hfloor : ⌊x⌋₊ = m := hx.floor_eq.trans (by
    unfold ExtendedMantissa.ofMantissaAndAccuracy
    split <;> rfl)
  have hlog := (Nat.log2_eq_iff hm.ne').mp rfl
  have hlow : 2 ^ m.log2 ≤ x := by
    have := (Nat.le_floor_iff hx.nonneg).mp (hlog.1.trans_eq hfloor.symm)
    exact_mod_cast this
  have hhigh : x < 2 ^ (m.log2 + 1) := by
    have := (Nat.floor_lt hx.nonneg).mp (hfloor.trans_lt hlog.2)
    exact_mod_cast this
  have hspare : (spareBits (x * 2 ^ (e + 149)) : ℤ) = t + 149 := spareBits_scaled hlow hhigh e
  have hquotient : x * 2 ^ (e + 149) / 2 ^ spareBits (x * 2 ^ (e + 149)) =
      x / 2 ^ (t - e).toNat := by
    rw [← zpow_natCast, ← zpow_natCast, hspare, Int.toNat_of_nonneg (by omega), mul_div_assoc,
      ← zpow_sub₀ two_ne_zero, div_eq_mul_inv, ← zpow_neg]
    congr 2
    omega
  -- the mantissa that is kept, rounded by the bits after it
  have hfirst : shiftToTargetExponent Format.binary32 m e accuracy =
      (ExtendedMantissa.ofMantissaAndAccuracy m accuracy >>> (t - e).toNat, t) := by
    rw [shiftToTargetExponent, targetExponent_max, ← ht]
    simp only [shiftToExponent]
    rw [Int.toNat_of_nonneg (by omega), add_sub_cancel]
  have hrounded := (hx.shiftRight (t - e).toNat).roundedMantissa_eq
  rw [← hquotient] at hrounded
  have hmagnitude : min reach (magnitude (nearest (x * 2 ^ (e + 149) /
      2 ^ spareBits (x * 2 ^ (e + 149)))) t) = rounded (x * 2 ^ (e + 149)) := by
    rw [rounded, magnitude, show (t + 149).toNat = spareBits (x * 2 ^ (e + 149)) by omega]
  have hcarried := yields_carried s (nearest_quotient_le (x * 2 ^ (e + 149)))
    (by omega : -149 ≤ t) (or_iff_not_imp_right.mpr fun hne =>
      le_nearest_quotient (by omega))
  rw [hmagnitude] at hcarried
  simp only [roundWithAccuracy, hfirst, hrounded]
  exact hcarried

/-! ### Exact mantissas -/

lemma two_zpow_natCast (k : ℕ) (e : ℤ) (he : (k : ℤ) = e) : (2 : ℝ) ^ e = ((2 ^ k : ℕ) : ℝ) := by
  rw [← he, zpow_natCast, Nat.cast_pow, Nat.cast_ofNat]

lemma cast_magnitude (m : ℕ) {e : ℤ} (he : -149 ≤ e) :
    (magnitude m e : ℝ) = m * 2 ^ (e + 149) := by
  rw [magnitude, Nat.cast_mul, two_zpow_natCast (e + 149).toNat (e + 149) (by omega)]

lemma log2_shiftLeft (hm : 0 < m) (k : ℕ) : (m <<< k).log2 = m.log2 + k := by
  have hlog := (Nat.log2_eq_iff hm.ne').mp rfl
  rw [Nat.shiftLeft_eq, Nat.log2_eq_iff (Nat.mul_pos hm (Nat.two_pow_pos k)).ne']
  constructor
  · rw [pow_add]
    exact Nat.mul_le_mul_right _ hlog.1
  · rw [Nat.add_right_comm, pow_add]
    exact Nat.mul_lt_mul_of_pos_right hlog.2 (Nat.two_pow_pos k)

/-- A mantissa is brought to the exponent that its length asks for before it is rounded. -/
lemma yields_round (s : Sign) (hm : 0 < m) (e : ℤ) :
    Yields (UnpackedFloat.round Format.binary32 s m e) (s.apply (rounded (m * 2 ^ (e + 149)))) := by
  set t := Format.binary32.targetExponent (totalExponent m e) with ht
  set d := (e - t).toNat with hd
  have hlog : (m <<< d).log2 = m.log2 + d := log2_shiftLeft hm d
  have hvalue : ((m <<< d : ℕ) : ℝ) * 2 ^ (e - d + 149) = m * 2 ^ (e + 149) := by
    rw [Nat.shiftLeft_eq, Nat.cast_mul, ← two_zpow_natCast d d rfl, mul_assoc,
      ← zpow_add₀ two_ne_zero]
    congr 2
    ring
  have hround := yields_roundWithAccuracy s (e := e - d)
    (by rw [Nat.shiftLeft_eq]; exact Nat.mul_pos hm (Nat.two_pow_pos d))
    (holds_exact (m <<< d)) (by
      rw [hlog]
      rw [targetExponent_max] at ht
      omega)
  rwa [hvalue] at hround

lemma yields_normalize (z : ℤ) (e : ℤ) (s : Sign) :
    Yields (UnpackedFloat.normalize Format.binary32 z e s) (roundedSigned (z * 2 ^ (e + 149))) := by
  have hpower : (0 : ℝ) < 2 ^ (e + 149) := zpow_pos (by norm_num) _
  rw [UnpackedFloat.normalize]
  rcases lt_trichotomy z 0 with hneg | rfl | hpos
  · have hcast : (((-z).toNat : ℕ) : ℝ) = -z := by
      exact_mod_cast Int.toNat_of_nonneg (by omega : 0 ≤ -z)
    have hround := yields_round .negative (by omega : 0 < (-z).toNat) e
    rw [compare_lt_iff_lt.mpr hneg]
    rw [hcast, neg_mul, Sign.apply, ← roundedSigned_of_nonneg, roundedSigned_neg, neg_neg] at hround
    · exact hround
    · rw [← neg_mul, ← Int.cast_neg]
      exact mul_nonneg (by exact_mod_cast (by omega : 0 ≤ -z)) hpower.le
  · rw [compare_eq_iff_eq.mpr rfl, Int.cast_zero, zero_mul, roundedSigned_of_nonneg le_rfl,
      rounded_zero]
    exact (stands_zero s).yields
  · have hcast : ((z.toNat : ℕ) : ℝ) = z := by exact_mod_cast Int.toNat_of_nonneg hpos.le
    have hround := yields_round .positive (by omega : 0 < z.toNat) e
    rw [compare_gt_iff_gt.mpr hpos]
    rw [hcast, Sign.apply, ← roundedSigned_of_nonneg] at hround
    · exact hround
    · exact mul_nonneg (by exact_mod_cast hpos.le) hpower.le

end Single

end Sightline
