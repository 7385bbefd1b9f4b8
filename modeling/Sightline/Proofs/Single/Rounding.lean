import Mathlib.Analysis.SpecialFunctions.Sqrt
import Mathlib.Tactic
import Sightline.Proofs.Single.Exact

/-!
# Rounding

Where the exact result of an operation is no single, the nearest one takes its place, of two equally
near ones the one with the even mantissa. Here that choice is a function of the exact result, counted
in units; it keeps the order, and it keeps what is a single already.
-/

namespace Sightline

namespace Single

open Float.Model (Format UnpackedFloat totalExponent)
open Float.Model.UnpackedFloat

/-! ### The nearest whole number -/

/-- The nearest whole number to one that is not negative; a tie goes to the even one. -/
noncomputable def nearest (x : ℝ) : ℕ :=
  if x - ⌊x⌋₊ < 1 / 2 then ⌊x⌋₊
  else if 1 / 2 < x - ⌊x⌋₊ then ⌊x⌋₊ + 1
  else ⌊x⌋₊ + ⌊x⌋₊ % 2

variable {x y : ℝ} {n : ℕ}

lemma floor_le_nearest (x : ℝ) : ⌊x⌋₊ ≤ nearest x := by
  rw [nearest]
  split_ifs <;> omega

lemma nearest_le_floor_add_one (x : ℝ) : nearest x ≤ ⌊x⌋₊ + 1 := by
  rw [nearest]
  split_ifs <;> omega

lemma nearest_natCast (n : ℕ) : nearest n = n := by
  rw [nearest, Nat.floor_natCast, if_pos (by norm_num)]

lemma nearest_mono (h : x ≤ y) : nearest x ≤ nearest y := by
  have hfloor : ⌊x⌋₊ ≤ ⌊y⌋₊ := Nat.floor_mono h
  rcases hfloor.lt_or_eq with hlt | heq
  · calc nearest x ≤ ⌊x⌋₊ + 1 := nearest_le_floor_add_one x
      _ ≤ ⌊y⌋₊ := hlt
      _ ≤ nearest y := floor_le_nearest y
  · -- between the same whole numbers only the rest decides
    rw [nearest, nearest, heq]
    split_ifs <;> first | omega | (exfalso; linarith)

/-! ### The nearest single -/

/-- The number of bits by which a number of units is too long for a mantissa. -/
noncomputable def spareBits (x : ℝ) : ℕ := ⌊x⌋₊.log2 - 23

/-- The units of the single nearest to a number of units that is not negative. -/
noncomputable def rounded (x : ℝ) : ℕ :=
  min reach (nearest (x / 2 ^ spareBits x) * 2 ^ spareBits x)

lemma lt_two_pow_spareBits (x : ℝ) : x < 2 ^ (spareBits x + 24) := by
  have hlog : ⌊x⌋₊ < 2 ^ (⌊x⌋₊.log2 + 1) := Nat.lt_log2_self
  have hfloor : ⌊x⌋₊ < 2 ^ (spareBits x + 24) :=
    hlog.trans_le (Nat.pow_le_pow_right Nat.zero_lt_two (by rw [spareBits]; omega))
  have hcast := (Nat.floor_lt' (Nat.two_pow_pos (spareBits x + 24)).ne').mp hfloor
  exact_mod_cast hcast

lemma two_pow_spareBits_le (h : spareBits x ≠ 0) : 2 ^ (spareBits x + 23) ≤ x := by
  have hne : ⌊x⌋₊ ≠ 0 := by
    intro hzero
    simp [spareBits, hzero] at h
  have hlog : 2 ^ ⌊x⌋₊.log2 ≤ ⌊x⌋₊ := Nat.log2_self_le hne
  have hexponent : spareBits x + 23 = ⌊x⌋₊.log2 := by
    rw [spareBits] at h ⊢
    omega
  rw [← hexponent] at hlog
  have hcast := (Nat.le_floor_iff' (Nat.two_pow_pos (spareBits x + 23)).ne').mp hlog
  exact_mod_cast hcast

lemma spareBits_mono (h : x ≤ y) : spareBits x ≤ spareBits y := by
  rw [spareBits, spareBits, Nat.log2_eq_log_two, Nat.log2_eq_log_two]
  exact Nat.sub_le_sub_right (Nat.log_mono_right (Nat.floor_mono h)) 23

lemma nearest_quotient_le (x : ℝ) : nearest (x / 2 ^ spareBits x) ≤ 2 ^ 24 := by
  have hquotient : x / 2 ^ spareBits x ≤ ((2 ^ 24 : ℕ) : ℝ) := by
    rw [div_le_iff₀ (by positivity), Nat.cast_pow, Nat.cast_ofNat, ← pow_add, add_comm]
    exact (lt_two_pow_spareBits x).le
  exact (nearest_mono hquotient).trans_eq (nearest_natCast _)

lemma le_nearest_quotient (h : spareBits x ≠ 0) : 2 ^ 23 ≤ nearest (x / 2 ^ spareBits x) := by
  have hquotient : ((2 ^ 23 : ℕ) : ℝ) ≤ x / 2 ^ spareBits x := by
    rw [le_div_iff₀ (by positivity), Nat.cast_pow, Nat.cast_ofNat, ← pow_add, add_comm]
    exact two_pow_spareBits_le h
  exact (nearest_natCast _).symm.trans_le (nearest_mono hquotient)

lemma rounded_mono (h : x ≤ y) : rounded x ≤ rounded y := by
  refine min_le_min_left reach ?_
  rcases (spareBits_mono h).lt_or_eq with hlt | heq
  · -- a power of two lies between the two results
    calc nearest (x / 2 ^ spareBits x) * 2 ^ spareBits x
        ≤ 2 ^ 24 * 2 ^ spareBits x := Nat.mul_le_mul_right _ (nearest_quotient_le x)
      _ ≤ 2 ^ 23 * 2 ^ spareBits y := by
        rw [← pow_add, ← pow_add]
        exact Nat.pow_le_pow_right Nat.zero_lt_two (by omega)
      _ ≤ nearest (y / 2 ^ spareBits y) * 2 ^ spareBits y :=
        Nat.mul_le_mul_right _ (le_nearest_quotient (by omega))
  · rw [heq]
    refine Nat.mul_le_mul_right _ (nearest_mono ?_)
    exact div_le_div_of_nonneg_right h (by positivity)

lemma rounded_of_exact (h : Exact n) : rounded n = n := by
  have hbits : spareBits (n : ℝ) = n.log2 - 23 := by rw [spareBits, Nat.floor_natCast]
  have hquotient : (n : ℝ) / 2 ^ (n.log2 - 23) = ((n / 2 ^ (n.log2 - 23) : ℕ) : ℝ) := by
    rw [Nat.cast_div h.2 (by positivity)]
    push_cast
    rfl
  rw [rounded, hbits, hquotient, nearest_natCast, Nat.div_mul_cancel h.2]
  exact min_eq_right h.1.le

/-- The units of the single nearest to a number of units of either sign. -/
noncomputable def roundedSigned (x : ℝ) : ℤ := if 0 ≤ x then rounded x else -rounded (-x)

lemma rounded_zero : rounded 0 = 0 := by
  have h := rounded_of_exact (n := 0) ⟨reach_pos, dvd_zero _⟩
  exact_mod_cast h

lemma roundedSigned_of_nonneg (h : 0 ≤ x) : roundedSigned x = rounded x := if_pos h

lemma roundedSigned_neg (x : ℝ) : roundedSigned (-x) = -roundedSigned x := by
  rcases lt_trichotomy x 0 with h | rfl | h
  · rw [roundedSigned, roundedSigned, if_pos (by linarith), if_neg (by linarith), neg_neg]
  · simp [roundedSigned, rounded_zero]
  · rw [roundedSigned, roundedSigned, if_neg (by linarith), if_pos h.le, neg_neg]

lemma roundedSigned_mono (h : x ≤ y) : roundedSigned x ≤ roundedSigned y := by
  rw [roundedSigned, roundedSigned]
  split_ifs with hx hy hy
  · exact Int.ofNat_le.mpr (rounded_mono h)
  · exact absurd (hx.trans h) hy
  · omega
  · exact neg_le_neg (Int.ofNat_le.mpr (rounded_mono (neg_le_neg h)))

lemma roundedSigned_apply (s : Sign) (m n : ℕ) :
    roundedSigned ((s.apply (m : ℤ) : ℤ) / n) = s.apply (rounded (m / n)) := by
  have hquotient : (0 : ℝ) ≤ m / n := by positivity
  cases s with
  | negative =>
    rw [Sign.apply, Int.cast_neg, Int.cast_natCast, neg_div, roundedSigned_neg,
      roundedSigned_of_nonneg hquotient]
    rfl
  | positive =>
    rw [Sign.apply, Int.cast_natCast, roundedSigned_of_nonneg hquotient]
    rfl

/-! ### Mantissas with the bits dropped after them -/

/-- A mantissa and what is known of the bits after it belong to a number. -/
def Holds (em : ExtendedMantissa) (x : ℝ) : Prop :=
  ∃ rest : ℝ, (0 ≤ rest ∧ rest < 1 / 2) ∧ (em.stickyBit = true ↔ 0 < rest) ∧
    x = em.mantissa + (bif em.roundBit then 1 / 2 else 0) + rest

lemma holds_exact (m : ℕ) : Holds (ExtendedMantissa.ofMantissaAndAccuracy m .exact) m :=
  ⟨0, by norm_num, by simp [ExtendedMantissa.ofMantissaAndAccuracy],
    by simp [ExtendedMantissa.ofMantissaAndAccuracy]⟩

lemma half_bounds (b : Bool) : (0 : ℝ) ≤ (bif b then 1 / 2 else 0) ∧
    (bif b then 1 / 2 else 0) ≤ (1 / 2 : ℝ) := by
  cases b <;> norm_num

variable {em : ExtendedMantissa}

lemma Holds.floor_eq (h : Holds em x) : ⌊x⌋₊ = em.mantissa := by
  obtain ⟨rest, ⟨hrest, hrest'⟩, -, rfl⟩ := h
  obtain ⟨hhalf, hhalf'⟩ := half_bounds em.roundBit
  rw [Nat.floor_eq_iff (by positivity)]
  constructor <;> linarith

lemma Holds.nonneg (h : Holds em x) : 0 ≤ x := by
  obtain ⟨rest, ⟨hrest, -⟩, -, rfl⟩ := h
  have hhalf := (half_bounds em.roundBit).1
  positivity

/-- Shifting by one place drops the last bit of the mantissa and keeps it as the first one after. -/
lemma Holds.shiftRightOne (h : Holds em x) : Holds em.shiftRightOne (x / 2) := by
  obtain ⟨rest, ⟨hrest, hrest'⟩, hsticky, rfl⟩ := h
  obtain ⟨hhalf, hhalf'⟩ := half_bounds em.roundBit
  refine ⟨((bif em.roundBit then 1 / 2 else 0) + rest) / 2, ⟨by linarith, by linarith⟩, ?_, ?_⟩
  · rw [ExtendedMantissa.shiftRightOne, Bool.or_eq_true, hsticky]
    cases em.roundBit with
    | false => simp
    | true =>
      simp only [true_or, true_iff, cond_true]
      linarith
  · have hlast : (bif em.mantissa % 2 != 0 then 1 / 2 else 0 : ℝ) =
        ((em.mantissa % 2 : ℕ) : ℝ) / 2 := by
      rcases Nat.mod_two_eq_zero_or_one em.mantissa with hparity | hparity <;> simp [hparity]
    have hsplit : (em.mantissa : ℝ) =
        ((em.mantissa % 2 : ℕ) : ℝ) + 2 * ((em.mantissa / 2 : ℕ) : ℝ) := by
      exact_mod_cast (Nat.mod_add_div em.mantissa 2).symm
    simp only [ExtendedMantissa.shiftRightOne]
    rw [hlast]
    linarith

lemma Holds.shiftRight (h : Holds em x) (n : ℕ) : Holds (em >>> n) (x / 2 ^ n) := by
  induction n with
  | zero =>
    rw [pow_zero, div_one]
    exact h
  | succ n ih =>
    rw [pow_succ, ← div_div]
    exact ih.shiftRightOne

/-- The bits after the mantissa are all that rounding has to know. -/
lemma Holds.roundedMantissa_eq (h : Holds em x) : em.roundedMantissa = nearest x := by
  have hfloor := h.floor_eq
  obtain ⟨rest, ⟨hrest, hrest'⟩, hsticky, hx⟩ := h
  have hleft : x - em.mantissa = (bif em.roundBit then 1 / 2 else 0) + rest := by linarith
  rw [nearest, hfloor, hleft]
  obtain ⟨m, roundBit, stickyBit⟩ := em
  cases stickyBit with
  | false =>
    obtain rfl : rest = 0 := by
      refine le_antisymm (not_lt.mp fun hpos => ?_) hrest
      exact absurd (hsticky.mpr hpos) Bool.false_ne_true
    cases roundBit with
    | false => rw [if_pos (by norm_num)]; rfl
    | true => rw [if_neg (by norm_num), if_neg (by norm_num)]; rfl
  | true =>
    have hpos : 0 < rest := hsticky.mp rfl
    cases roundBit with
    | false => rw [if_pos (by simpa using hrest')]; rfl
    | true =>
      rw [if_neg (by simp [hrest]), if_pos (by simpa using hpos)]
      rfl

end Single

end Sightline
