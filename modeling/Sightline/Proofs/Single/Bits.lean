import Mathlib
import Sightline.Single

/-!
# Singles as bit patterns

A single is its bit pattern, and all that is no number has one pattern. So a pattern can be taken
apart and put together again without loss, and an operation that leaves the parts as they are leaves
the single as it is.
-/

namespace Sightline

namespace Single

open Float.Model (Format UnpackedFloat)
open Float.Model.UnpackedFloat

/-! ### Taking patterns apart -/

section Fields

variable (b : BitVec Format.binary32.numBits)

lemma toNat_unpackSign : (unpackSign b).toNat = b.toNat / 2 ^ 31 % 2 := by
  rw [unpackSign, BitVec.toNat_cast, BitVec.extractLsb_toNat, Nat.shiftRight_eq_div_pow]
  rfl

lemma toNat_unpackExponent : (unpackExponent b).toNat = b.toNat / 2 ^ 23 % 2 ^ 8 := by
  rw [unpackExponent, BitVec.toNat_cast, BitVec.extractLsb_toNat, Nat.shiftRight_eq_div_pow]
  rfl

lemma toNat_unpackMantissa : (unpackMantissa b).toNat = b.toNat % 2 ^ 23 := by
  rw [unpackMantissa, BitVec.toNat_cast, BitVec.extractLsb_toNat, Nat.shiftRight_zero]
  rfl

end Fields

lemma toBitVec_ofBitVec : ∀ s : BitVec 1, (Sign.ofBitVec s).toBitVec = s := by decide

/-- A pattern is its sign, its exponent field and its fraction, one after the other. -/
lemma packComponents_eq_self {b : BitVec Format.binary32.numBits} {e : BitVec 8} {m : BitVec 23}
    (he : unpackExponent b = e) (hm : unpackMantissa b = m) :
    packComponents Format.binary32 (Sign.ofBitVec (unpackSign b)) e m = b := by
  subst he hm
  simp only [packComponents, toBitVec_ofBitVec]
  simp only [unpackSign, unpackExponent, unpackMantissa, BitVec.extractLsb]
  ext i hi
  grind

/-- Where the exponent field is zero, the fraction is the whole mantissa. -/
lemma pack_subnormal (s : Sign) {m : BitVec 23} (hm : 0 < m.toNat) :
    pack Format.binary32 (.finite s m.toNat (-149) hm) =
      packComponents Format.binary32 s 0#8 m := by
  have hlog : m.toNat.log2 < 23 := (Nat.log2_lt hm.ne').mpr m.isLt
  have hbits : ¬ m.toNat.log2 + 1 = Format.binary32.mantissaBits := by
    simp only [Format.mantissaBits]
    omega
  rw [pack, if_neg (by decide), if_neg hbits, BitVec.ofNat_toNat, BitVec.setWidth_eq]

/-- Elsewhere a leading bit stands before the fraction. -/
lemma pack_normal (s : Sign) {e : BitVec 8} (he : e ≠ -1#8) (m : BitVec 23)
    (hm : 0 < (1#1 ++ m).toNat) :
    pack Format.binary32 (.finite s (1#1 ++ m).toNat (e.toNat - (127 + 23)) hm) =
      packComponents Format.binary32 s e m := by
  have hlt : m.toNat < 2 ^ 23 := m.isLt
  have hmantissa : (1#1 ++ m).toNat = 2 ^ 23 + m.toNat := by
    rw [BitVec.toNat_append]
    exact (Nat.shiftLeft_add_eq_or_of_lt hlt 1).symm
  have hbits : (1#1 ++ m).toNat.log2 + 1 = Format.binary32.mantissaBits := by
    rw [(Nat.log2_eq_iff hm.ne').mpr (by omega : 2 ^ 23 ≤ _ ∧ _ < 2 ^ (23 + 1))]
    rfl
  have hfield : ((e.toNat : ℤ) - (127 + 23) + (Format.binary32.exponentBias : ℕ) +
      (Format.binary32.mantissaBitsWithoutImplicit : ℕ)).toNat = e.toNat := by
    have hbias : (Format.binary32.exponentBias : ℤ) = 127 := rfl
    have hfraction : (Format.binary32.mantissaBitsWithoutImplicit : ℤ) = 23 := rfl
    omega
  have hfinite : ¬ 2 ^ Format.binary32.exponentBits ≤ e.toNat + 1 := by
    have htop : e.toNat ≠ 255 := fun h => he (BitVec.eq_of_toNat_eq h)
    have hrange : e.toNat < 256 := e.isLt
    change ¬ 256 ≤ e.toNat + 1
    omega
  rw [pack]
  simp only [hfield]
  rw [if_neg hfinite, if_pos hbits, BitVec.ofNat_toNat, BitVec.setWidth_eq]
  congr 1
  refine BitVec.eq_of_toNat_eq ?_
  rw [BitVec.toNat_ofNat, hmantissa, Nat.add_mod_left, Nat.mod_eq_of_lt hlt]

lemma pack_unpack {b : BitVec Format.binary32.numBits} (hb : Format.binary32.Valid b) :
    pack Format.binary32 (UnpackedFloat.unpack Format.binary32 b) = b := by
  rw [UnpackedFloat.unpack]
  split
  next htop =>
    split
    next hzero => exact packComponents_eq_self htop hzero
    next hnonzero => exact (hb.eq_packedNaN htop hnonzero).symm
  next htop =>
    split
    next hlow =>
      split
      next hzero => exact packComponents_eq_self hlow hzero
      next hnonzero =>
        have hpos : 0 < (unpackMantissa b).toNat :=
          Nat.pos_of_ne_zero fun h => hnonzero (BitVec.eq_of_toNat_eq h)
        have hexponent : ((unpackExponent b).toNat : ℤ) -
            ((Format.binary32.exponentBias : ℕ) +
              (Format.binary32.mantissaBitsWithoutImplicit : ℕ)) + 1 = -149 := by
          rw [hlow]
          rfl
        simp only [hexponent]
        rw [pack_subnormal _ hpos]
        exact packComponents_eq_self hlow rfl
    next => exact (pack_normal _ htop _ _).trans (packComponents_eq_self rfl rfl)

/-! ### What leaves a single as it is -/

lemma ext_bits {x y : Float32} (h : x.toBits = y.toBits) : x = y := by
  obtain ⟨⟨bits, hx⟩⟩ := x
  obtain ⟨⟨bits', hy⟩⟩ := y
  obtain rfl : bits = bits' := h
  rfl

lemma ofBits_toBits (x : Float32) : Float32.ofBits x.toBits = x := by
  refine ext_bits ?_
  have h := pack_unpack x.toModel.valid
  exact UInt32.eq_of_toBitVec_eq h

/-- Taking nothing away changes nothing. -/
lemma sub_zero (x : Float32) : x - 0 = x := by
  have hzero : ((0 : Float32).toModel.unpack) = .zero .positive := rfl
  have hsub : UnpackedFloat.sub Format.binary32 x.toModel.unpack (.zero .positive) =
      x.toModel.unpack := by
    cases x.toModel.unpack with
    | notANumber => rfl
    | infinity s => rfl
    | zero s => cases s <;> rfl
    | finite s m e hm => rfl
  refine ext_bits (UInt32.eq_of_toBitVec_eq ?_)
  calc (x - 0).toBits.toBitVec
      = pack Format.binary32 (UnpackedFloat.sub Format.binary32 x.toModel.unpack
          ((0 : Float32).toModel.unpack)) := rfl
    _ = pack Format.binary32 x.toModel.unpack := by rw [hzero, hsub]
    _ = x.toBits.toBitVec := pack_unpack x.toModel.valid

end Single

end Sightline
