import Mathlib.Tactic
import Sightline.Decimal.Shortest

/-!
# Rounding to binary formats

A number of a binary format is `m * 2 ^ q` in one form only, and its pattern is a mixed-radix
numeral of the two. Whatever lies in the interval around it is rounded to it.
-/

namespace Sightline

/-! ### Powers as fractions -/

lemma powerUp_pos {b : ℕ} (hb : 0 < b) (e : ℤ) : 0 < powerUp b e := Nat.pow_pos hb

lemma powerDown_pos {b : ℕ} (hb : 0 < b) (e : ℤ) : 0 < powerDown b e := Nat.pow_pos hb

lemma cast_powerUp {b : ℕ} (hb : 0 < b) (e : ℤ) :
    (powerUp b e : ℚ) = (b : ℚ) ^ e * powerDown b e := by
  have hne : (b : ℚ) ≠ 0 := by exact_mod_cast hb.ne'
  have hup : (powerUp b e : ℚ) = (b : ℚ) ^ e.toNat := Nat.cast_pow b _
  have hdown : (powerDown b e : ℚ) = (b : ℚ) ^ (-e).toNat := Nat.cast_pow b _
  rw [hup, hdown, ← zpow_natCast, ← zpow_natCast, ← zpow_add₀ hne]
  congr 1
  omega

/-- A whole number times a power, as a fraction. -/
lemma cast_mul_power {b : ℕ} (hb : 0 < b) (n : ℕ) (e : ℤ) :
    ((n * powerUp b e : ℕ) : ℚ) / powerDown b e = n * (b : ℚ) ^ e := by
  have hdown : (powerDown b e : ℚ) ≠ 0 := by exact_mod_cast (powerDown_pos hb e).ne'
  rw [Nat.cast_mul, cast_powerUp hb, ← mul_assoc, mul_div_cancel_right₀ _ hdown]

/-- A fraction divided by a power. -/
lemma cast_div_power {b : ℕ} (hb : 0 < b) (num den : ℕ) (e : ℤ) :
    ((num * powerDown b e : ℕ) : ℚ) / ((den * powerUp b e : ℕ) : ℚ) =
      (num : ℚ) / den / (b : ℚ) ^ e := by
  have hdown : (powerDown b e : ℚ) ≠ 0 := by exact_mod_cast (powerDown_pos hb e).ne'
  rw [Nat.cast_mul, Nat.cast_mul, cast_powerUp hb, ← mul_assoc, mul_div_mul_right _ _ hdown,
    div_div]

/-! ### Rounding to whole numbers -/

/-- A whole number is the nearest one, or the even one of the two nearest. -/
structure RoundsTo (v : ℚ) (m : ℕ) : Prop where
  lower : m - 1 / 2 ≤ v
  upper : v ≤ m + 1 / 2
  /-- From half way to a neighbour, an odd number is not rounded to. -/
  strict : m % 2 = 1 → m - 1 / 2 < v ∧ v < m + 1 / 2

lemma roundDiv_eq {num den m : ℕ} (hden : 0 < den) (h : RoundsTo ((num : ℚ) / den) m) :
    roundDiv num den = m := by
  have hpos : (0 : ℚ) < den := by exact_mod_cast hden
  -- both ends of the interval, cleared of fractions
  have hlower : 2 * m * den ≤ 2 * num + den := by
    have hlower := (le_div_iff₀ hpos).mp h.lower
    exact_mod_cast (by linarith : (2 * m * den : ℚ) ≤ 2 * num + den)
  have hupper : 2 * num ≤ 2 * m * den + den := by
    have hupper := (div_le_iff₀ hpos).mp h.upper
    exact_mod_cast (by linarith : (2 * num : ℚ) ≤ 2 * m * den + den)
  have hstrict : m % 2 = 1 → 2 * m * den < 2 * num + den ∧ 2 * num < 2 * m * den + den := by
    intro hodd
    have hlower := (lt_div_iff₀ hpos).mp (h.strict hodd).1
    have hupper := (div_lt_iff₀ hpos).mp (h.strict hodd).2
    exact ⟨by exact_mod_cast (by linarith : (2 * m * den : ℚ) < 2 * num + den),
      by exact_mod_cast (by linarith : (2 * num : ℚ) < 2 * m * den + den)⟩
  have hsplit := Nat.div_add_mod num den
  have hrest := Nat.mod_lt num hden
  unfold roundDiv
  generalize num / den = whole at *
  generalize num % den = rest at *
  have hle : whole ≤ m := by
    by_contra hgt
    have : den * (m + 1) ≤ den * whole := Nat.mul_le_mul_left den (by omega)
    nlinarith
  have hge : m ≤ whole + 1 := by
    by_contra hlt
    have : den * (whole + 2) ≤ den * m := Nat.mul_le_mul_left den (by omega)
    nlinarith
  obtain rfl | rfl : m = whole ∨ m = whole + 1 := by omega
  · have hproduct : 2 * m * den = 2 * (den * m) := by ring
    exact if_neg (by omega)
  · have hproduct : 2 * (whole + 1) * den = 2 * (den * whole) + 2 * den := by ring
    exact if_pos (by omega)

/-! ### Numbers of a format -/

namespace BinaryFormat

/-- The pattern of `m * 2 ^ q`, without the sign. -/
def pattern (f : BinaryFormat) (m : ℕ) (q : ℤ) : ℕ :=
  (q - f.leastExponent).toNat * 2 ^ f.fractionBits + m

/-- The format has the number `m * 2 ^ q`, and has it in this form. -/
structure Holds (f : BinaryFormat) (m : ℕ) (q : ℤ) : Prop where
  least : f.leastExponent ≤ q
  lt : m < 2 ^ (f.fractionBits + 1)
  /-- Only at the finest exponent may the leading bit be missing. -/
  normal : q = f.leastExponent ∨ 2 ^ f.fractionBits ≤ m
  finite : f.pattern m q < f.infinityBits

variable {f : BinaryFormat} {m num den : ℕ} {q : ℤ}

lemma Holds.exponent_lt (h : f.Holds m q) : q < f.leastExponent + f.topField := by
  have hfield : (q - f.leastExponent).toNat * 2 ^ f.fractionBits <
      f.topField * 2 ^ f.fractionBits := (Nat.le_add_right _ m).trans_lt h.finite
  have hlt := Nat.lt_of_mul_lt_mul_right hfield
  omega

/-- Zero is held at the finest exponent. -/
lemma Holds.pattern_zero (h : f.Holds 0 q) : f.pattern 0 q = 0 := by
  have hfinest : q = f.leastExponent := h.normal.resolve_right (not_le.mpr (Nat.two_pow_pos _))
  simp [pattern, hfinest]

/-- A mantissa that has become too long is that of the next exponent. -/
lemma pattern_carry (h : f.leastExponent < q) :
    f.pattern (2 ^ (f.fractionBits + 1)) (q + -1) = f.pattern (2 ^ f.fractionBits) q := by
  have hfield : (q - f.leastExponent).toNat = (q + -1 - f.leastExponent).toNat + 1 := by omega
  rw [pattern, pattern, hfield, pow_succ]
  ring

/-- A quotient is between two powers of two that its parts tell. -/
lemma log2_quotient (hnum : 0 < num) (hden : 0 < den) :
    (2 : ℚ) ^ ((num.log2 : ℤ) - den.log2 - 1) < num / den ∧
      (num / den : ℚ) < 2 ^ ((num.log2 : ℤ) - den.log2 + 1) := by
  have hnumlow : (2 : ℚ) ^ (num.log2 : ℤ) ≤ num := by
    exact_mod_cast Nat.log2_self_le hnum.ne'
  have hnumhigh : (num : ℚ) < 2 ^ ((num.log2 : ℤ) + 1) := by
    exact_mod_cast Nat.lt_log2_self
  have hdenlow : (2 : ℚ) ^ (den.log2 : ℤ) ≤ den := by
    exact_mod_cast Nat.log2_self_le hden.ne'
  have hdenhigh : (den : ℚ) < 2 ^ ((den.log2 : ℤ) + 1) := by
    exact_mod_cast Nat.lt_log2_self
  have hpos : (0 : ℚ) < den := by exact_mod_cast hden
  have htwo : (2 : ℚ) ≠ 0 := two_ne_zero
  constructor
  · rw [lt_div_iff₀ hpos]
    calc (2 : ℚ) ^ ((num.log2 : ℤ) - den.log2 - 1) * den
        < 2 ^ ((num.log2 : ℤ) - den.log2 - 1) * 2 ^ ((den.log2 : ℤ) + 1) := by gcongr
      _ = 2 ^ (num.log2 : ℤ) := by rw [← zpow_add₀ htwo]; congr 1; ring
      _ ≤ num := hnumlow
  · rw [div_lt_iff₀ hpos]
    calc (num : ℚ) < 2 ^ ((num.log2 : ℤ) + 1) := hnumhigh
      _ = 2 ^ ((num.log2 : ℤ) - den.log2 + 1) * 2 ^ (den.log2 : ℤ) := by
        rw [← zpow_add₀ htwo]; congr 1; ring
      _ ≤ 2 ^ ((num.log2 : ℤ) - den.log2 + 1) * den := by gcongr

/-- Powers of two in order have their exponents in order. -/
lemma lt_of_zpow_lt {a b : ℤ} (h : (2 : ℚ) ^ a < 2 ^ b) : a < b :=
  (zpow_lt_zpow_iff_right₀ one_lt_two).mp h

/-- The quotient is rounded on the grid that the power of two below it asks for. -/
lemma roundQuotient_eq_of_top (hnum : 0 < num) (hden : 0 < den) (top : ℤ)
    (hlower : (2 : ℚ) ^ top ≤ num / den) (hupper : (num / den : ℚ) < 2 ^ (top + 1))
    (hgrid : max (top - f.fractionBits) f.leastExponent = q)
    (hrounds : RoundsTo (num / den / 2 ^ q) m) :
    f.roundQuotient num den = min (f.pattern m q) f.infinityBits := by
  have hmantissa : roundDiv (num * powerDown 2 q) (den * powerUp 2 q) = m := by
    refine roundDiv_eq (Nat.mul_pos hden (powerUp_pos two_pos q)) ?_
    rw [cast_div_power two_pos]
    exact hrounds
  obtain ⟨hlow, hhigh⟩ := log2_quotient hnum hden
  let guess : ℤ := (num.log2 : ℤ) - den.log2
  have hfits : den * powerUp 2 guess ≤ num * powerDown 2 guess ↔ (2 : ℚ) ^ guess ≤ num / den := by
    have hpos : (0 : ℚ) < den := by exact_mod_cast hden
    have hdown : (0 : ℚ) < powerDown 2 guess := by exact_mod_cast powerDown_pos two_pos guess
    rw [le_div_iff₀ hpos, ← mul_le_mul_iff_of_pos_right hdown]
    have hup := cast_powerUp two_pos guess
    push_cast at hup
    rw [← Nat.cast_le (α := ℚ), Nat.cast_mul, Nat.cast_mul, hup]
    ring_nf
  have hguess : (if den * powerUp 2 guess ≤ num * powerDown 2 guess then guess else guess - 1) =
      top := by
    have hless := lt_of_zpow_lt (hlower.trans_lt hhigh)
    have hmore := lt_of_zpow_lt (hlow.trans hupper)
    split
    next hle =>
      have := lt_of_zpow_lt ((hfits.mp hle).trans_lt hupper)
      omega
    next hgt =>
      have := lt_of_zpow_lt (hlower.trans_lt (not_le.mp (hfits.not.mp hgt)))
      omega
  unfold roundQuotient
  rw [if_neg (by omega)]
  simp only [guess] at hguess
  simp only [hguess, hgrid, hmantissa]
  rfl

end BinaryFormat

/-! ### The interval around a number -/

namespace Shortest

/-- A number of units lies in an interval. -/
structure Interval.Contains (i : Interval) (u : ℚ) : Prop where
  lower : i.lower ≤ u
  upper : u ≤ i.upper
  /-- The ends need not belong to it. -/
  strict : i.closed = false → i.lower < u ∧ u < i.upper

variable {f : BinaryFormat} {m : ℕ} {q : ℤ} {u : ℚ}

lemma interval_lower (hm : 0 < m) : (4 * m - 2 : ℚ) ≤ (interval f m q).lower := by
  have h : 4 * m ≤ (interval f m q).lower + 2 := by
    unfold interval
    dsimp only
    split <;> omega
  have hcast : ((4 * m : ℕ) : ℚ) ≤ ((interval f m q).lower + 2 : ℕ) := by exact_mod_cast h
  push_cast at hcast
  linarith

/-- Below a power of two the numbers lie twice as close. -/
lemma interval_lower_of_carry (h : f.leastExponent < q) :
    ((interval f (2 ^ f.fractionBits) q).lower : ℚ) = 4 * 2 ^ f.fractionBits - 1 := by
  have hone : 1 ≤ 4 * 2 ^ f.fractionBits := Nat.mul_pos (by omega) (Nat.two_pow_pos _)
  have hlower : (interval f (2 ^ f.fractionBits) q).lower = 4 * 2 ^ f.fractionBits - 1 :=
    if_pos ⟨rfl, h⟩
  rw [hlower]
  push_cast [hone]
  ring

lemma interval_upper : ((interval f m q).upper : ℚ) = 4 * m + 2 := by simp [interval]

/-- Whatever lies in the interval is rounded to the number on its own grid. -/
lemma Interval.Contains.roundsTo (h : (interval f m q).Contains u) (hm : 0 < m) :
    RoundsTo (u / 4) m := by
  have hlower := h.lower
  have hupper := h.upper
  have hleast := interval_lower (f := f) (q := q) hm
  rw [interval_upper] at hupper
  refine ⟨by linarith, by linarith, fun hodd => ?_⟩
  obtain ⟨hlower, hupper⟩ := h.strict (by simp [interval, hodd])
  rw [interval_upper] at hupper
  exact ⟨by linarith, by linarith⟩

end Shortest

namespace BinaryFormat

open Shortest

variable {f : BinaryFormat} {m num den : ℕ} {q : ℤ}

/-! The exponents that the grid around a number depends on are compared in its units. -/

lemma two_zpow_eq (n : ℕ) (q k : ℤ) :
    (2 : ℚ) ^ (n + q + k) = 4 * 2 ^ n * 2 ^ k * 2 ^ (q - 2) := by
  rw [zpow_add₀ two_ne_zero, zpow_add₀ two_ne_zero, zpow_natCast, zpow_sub₀ two_ne_zero]
  ring

lemma two_zpow_le_iff {v : ℚ} (n : ℕ) (q k : ℤ) :
    (2 : ℚ) ^ (n + q + k) ≤ v ↔ 4 * 2 ^ n * 2 ^ k ≤ v / 2 ^ (q - 2) := by
  rw [two_zpow_eq, le_div_iff₀ (zpow_pos two_pos _)]

lemma lt_two_zpow_iff {v : ℚ} (n : ℕ) (q k : ℤ) :
    v < (2 : ℚ) ^ (n + q + k) ↔ v / 2 ^ (q - 2) < 4 * 2 ^ n * 2 ^ k := by
  rw [two_zpow_eq, div_lt_iff₀ (zpow_pos two_pos _)]

lemma div_two_zpow (v : ℚ) (q k : ℤ) : v / 2 ^ (q + k) = v / 2 ^ (q - 2) / (4 * 2 ^ k) := by
  rw [zpow_add₀ two_ne_zero, zpow_sub₀ two_ne_zero]
  field_simp
  norm_num

/-- Where the least mantissa has a finer grid below it, a quotient is rounded up to it from there. -/
lemma roundQuotient_eq_of_carry (hnum : 0 < num) (hden : 0 < den) (hq : f.leastExponent < q)
    (hlower : (4 * 2 ^ f.fractionBits - 1 : ℚ) ≤ num / den / 2 ^ (q - 2))
    (hupper : (num / den / 2 ^ (q - 2) : ℚ) < 4 * 2 ^ f.fractionBits) :
    f.roundQuotient num den = min (f.pattern (2 ^ f.fractionBits) q) f.infinityBits := by
  have hone : (1 : ℚ) ≤ 2 ^ f.fractionBits := one_le_pow₀ one_le_two
  have hlow : (2 : ℚ) ^ (f.fractionBits + q + -1) ≤ num / den := by
    rw [two_zpow_le_iff, zpow_neg_one]
    linarith
  have hhigh : (num / den : ℚ) < 2 ^ (f.fractionBits + q + -1 + 1) := by
    rw [neg_add_cancel_right, ← add_zero (f.fractionBits + q : ℤ), lt_two_zpow_iff, zpow_zero,
      mul_one]
    exact hupper
  have hrounds : RoundsTo (num / den / 2 ^ (q + -1)) (2 ^ (f.fractionBits + 1)) := by
    have heven : 2 ^ (f.fractionBits + 1) % 2 = 0 := by rw [pow_succ]; exact Nat.mul_mod_left _ _
    rw [div_two_zpow, zpow_neg_one]
    refine ⟨?_, ?_, fun hodd => absurd heven (by omega)⟩
    · push_cast [pow_succ]
      linarith
    · push_cast [pow_succ]
      linarith
  rw [← pattern_carry hq]
  exact roundQuotient_eq_of_top hnum hden _ hlow hhigh (by omega) hrounds

/-- Whatever lies in the interval around a number is rounded to it. -/
theorem Holds.roundQuotient_eq (h : f.Holds m q) (hm : 0 < m) (hden : 0 < den)
    (hin : (interval f m q).Contains (num / den / 2 ^ (q - 2))) :
    f.roundQuotient num den = f.pattern m q := by
  have hlower := (interval_lower hm).trans hin.lower
  have hupper := hin.upper.trans_eq interval_upper
  have hone : (1 : ℚ) ≤ m := by exact_mod_cast hm
  have hlt : (m : ℚ) + 1 ≤ 2 * 2 ^ f.fractionBits := by
    exact_mod_cast h.lt.trans_eq (pow_succ' 2 _)
  have hleast := h.least
  have hnum : 0 < num := by
    by_contra hzero
    rw [Nat.eq_zero_of_not_pos hzero, Nat.cast_zero, zero_div, zero_div] at hlower
    linarith
  have hrounds : RoundsTo (num / den / 2 ^ q) m := by
    rw [← add_zero q, div_two_zpow, zpow_zero, mul_one]
    exact hin.roundsTo hm
  rw [← min_eq_left h.finite.le]
  by_cases hleading : (4 * 2 ^ f.fractionBits : ℚ) ≤ num / den / 2 ^ (q - 2)
  · -- the leading bit of the quotient is that of a mantissa
    have hlow : (2 : ℚ) ^ (f.fractionBits + q + 0) ≤ num / den := by
      rwa [two_zpow_le_iff, zpow_zero, mul_one]
    have hhigh : (num / den : ℚ) < 2 ^ (f.fractionBits + q + 0 + 1) := by
      rw [add_zero, lt_two_zpow_iff, zpow_one]
      linarith
    exact roundQuotient_eq_of_top hnum hden _ hlow hhigh (by omega) hrounds
  by_cases hfinest : q = f.leastExponent
  · -- there is no finer grid, whatever the leading bit is
    have hpos : (0 : ℚ) < num / den := by positivity
    have hhigh : (num / den : ℚ) < 2 ^ (f.fractionBits + q + 0) := by
      rwa [lt_two_zpow_iff, zpow_zero, mul_one, ← not_le]
    obtain ⟨top, htop⟩ := exists_mem_Ico_zpow hpos one_lt_two
    have hless := lt_of_zpow_lt (htop.1.trans_lt hhigh)
    exact roundQuotient_eq_of_top hnum hden top htop.1 htop.2 (by omega) hrounds
  -- only the least mantissa reaches below the grid of its exponent
  have hnormal : 2 ^ f.fractionBits ≤ m := h.normal.resolve_left hfinest
  obtain rfl : m = 2 ^ f.fractionBits := by
    by_contra hne
    have hmore : ((2 ^ f.fractionBits + 1 : ℕ) : ℚ) ≤ m := by exact_mod_cast (by omega)
    push_cast at hmore
    linarith
  have hcoarse : f.leastExponent < q := lt_of_le_of_ne hleast (Ne.symm hfinest)
  refine roundQuotient_eq_of_carry hnum hden hcoarse ?_ (not_le.mp hleading)
  rw [← interval_lower_of_carry hcoarse]
  exact hin.lower

/-! ### Patterns -/

/-- A pattern stands for a number. -/
inductive Encodes (f : BinaryFormat) : BinaryNumber → ℕ → Prop
  | infinity (negative : Bool) :
    Encodes f (.infinity negative) (f.withSign negative f.infinityBits)
  | finite (negative : Bool) {m : ℕ} {q : ℤ} (holds : f.Holds m q) :
    Encodes f (.finite negative m q) (f.withSign negative (f.pattern m q))

lemma infinityBits_lt (f : BinaryFormat) : f.infinityBits < f.signBit := by
  have hfraction : 0 < 2 ^ f.fractionBits := Nat.two_pow_pos _
  have hexponent : 0 < 2 ^ f.exponentBits := Nat.two_pow_pos _
  have hbits : f.infinityBits = (2 ^ f.exponentBits - 1) * 2 ^ f.fractionBits := rfl
  have hsign : f.signBit = 2 ^ f.exponentBits * 2 ^ f.fractionBits := by
    rw [← pow_add, add_comm]
    rfl
  rw [hbits, hsign]
  exact Nat.mul_lt_mul_of_pos_right (by omega) hfraction

/-- The parts of a pattern that is put together from a sign and the rest. -/
lemma decode_withSign (negative : Bool) {p : ℕ} (hp : p < f.signBit) :
    f.decode (f.withSign negative p) =
      if p / 2 ^ f.fractionBits = f.topField then
        if p % 2 ^ f.fractionBits = 0 then .infinity negative else .nan
      else if p / 2 ^ f.fractionBits = 0 then
        .finite negative (p % 2 ^ f.fractionBits) f.leastExponent
      else .finite negative (2 ^ f.fractionBits + p % 2 ^ f.fractionBits)
        (f.leastExponent + (p / 2 ^ f.fractionBits - 1 : ℕ)) := by
  have hsign : f.signBit = 2 ^ f.fractionBits * 2 ^ f.exponentBits := pow_add 2 _ _
  have hfraction : f.withSign negative p % 2 ^ f.fractionBits = p % 2 ^ f.fractionBits := by
    cases negative with
    | false => rfl
    | true => simp [withSign, hsign]
  have hfield : f.withSign negative p / 2 ^ f.fractionBits % 2 ^ f.exponentBits =
      p / 2 ^ f.fractionBits := by
    have hlt : p / 2 ^ f.fractionBits < 2 ^ f.exponentBits :=
      Nat.div_lt_of_lt_mul (hp.trans_eq hsign)
    cases negative with
    | false => exact Nat.mod_eq_of_lt hlt
    | true =>
      rw [withSign, if_pos rfl, hsign, Nat.mul_add_div (Nat.two_pow_pos _), Nat.add_mod_left,
        Nat.mod_eq_of_lt hlt]
  have hnegative : (f.withSign negative p / f.signBit % 2 == 1) = negative := by
    have hpos : 0 < f.signBit := Nat.two_pow_pos _
    cases negative with
    | false => simp [withSign, Nat.div_eq_of_lt hp]
    | true => simp [withSign, Nat.add_div_left _ hpos, Nat.div_eq_of_lt hp]
  unfold decode
  simp only [Nat.pow_eq, hfraction, hfield, hnegative]

lemma Holds.lt_signBit (h : f.Holds m q) : f.pattern m q < f.signBit :=
  h.finite.trans f.infinityBits_lt

/-- The field below the top one that holds the exponent of a number. -/
lemma Holds.field_lt (h : f.Holds m q) : f.pattern m q / 2 ^ f.fractionBits < f.topField :=
  Nat.div_lt_of_lt_mul (h.finite.trans_eq (Nat.mul_comm _ _))

theorem Encodes.decode_eq {n : BinaryNumber} {bits : ℕ} (h : f.Encodes n bits) :
    f.decode bits = n := by
  have hfraction : 0 < 2 ^ f.fractionBits := Nat.two_pow_pos _
  cases h with
  | infinity negative =>
    have hbits : f.infinityBits = f.topField * 2 ^ f.fractionBits := rfl
    rw [decode_withSign negative f.infinityBits_lt, hbits, Nat.mul_div_cancel _ hfraction,
      if_pos rfl, Nat.mul_mod_left, if_pos rfl]
  | @finite negative m q holds =>
    have hleast := holds.least
    rw [decode_withSign negative holds.lt_signBit, if_neg holds.field_lt.ne]
    by_cases hleading : 2 ^ f.fractionBits ≤ m
    · obtain ⟨rest, rfl⟩ := Nat.exists_eq_add_of_le hleading
      have hrest : rest < 2 ^ f.fractionBits := by
        have := holds.lt
        rw [pow_succ] at this
        omega
      have hpattern : f.pattern (2 ^ f.fractionBits + rest) q =
          2 ^ f.fractionBits * ((q - f.leastExponent).toNat + 1) + rest := by
        rw [pattern]
        ring
      rw [hpattern, Nat.mul_add_div hfraction, Nat.mul_add_mod, Nat.div_eq_of_lt hrest,
        Nat.mod_eq_of_lt hrest, if_neg (by omega)]
      congr 1
      omega
    · obtain rfl : q = f.leastExponent := holds.normal.resolve_right hleading
      have hlt : m < 2 ^ f.fractionBits := not_le.mp hleading
      have hpattern : f.pattern m f.leastExponent = m := by simp [pattern]
      rw [hpattern, Nat.div_eq_of_lt hlt, Nat.mod_eq_of_lt hlt, if_pos rfl]

/-- The number with a given field and fraction. -/
lemma holds_of_parts {p : ℕ} (hp : p / 2 ^ f.fractionBits < f.topField) :
    let field := p / 2 ^ f.fractionBits
    let fraction := p % 2 ^ f.fractionBits
    (field = 0 → f.Holds fraction f.leastExponent ∧ f.pattern fraction f.leastExponent = p) ∧
    (field ≠ 0 → let m := 2 ^ f.fractionBits + fraction
      let q := f.leastExponent + (field - 1 : ℕ)
      f.Holds m q ∧ f.pattern m q = p) := by
  intro field fraction
  have hparts : 2 ^ f.fractionBits * field + fraction = p := Nat.div_add_mod p _
  have hfraction : fraction < 2 ^ f.fractionBits := Nat.mod_lt _ (Nat.two_pow_pos _)
  have hfinite : p < f.infinityBits := by
    have := (Nat.div_lt_iff_lt_mul (Nat.two_pow_pos _)).mp hp
    exact this
  constructor
  · intro hzero
    have hpattern : f.pattern fraction f.leastExponent = p := by
      simp [pattern, ← hparts, hzero]
    refine ⟨⟨le_rfl, by rw [pow_succ]; omega, Or.inl rfl, ?_⟩, hpattern⟩
    rwa [hpattern]
  · intro hpos m q
    have hfield : (q - f.leastExponent).toNat + 1 = field := by
      rw [add_sub_cancel_left, Int.toNat_natCast]
      exact Nat.sub_add_cancel (Nat.one_le_iff_ne_zero.mpr hpos)
    have hpattern : f.pattern m q = p := by
      rw [← hparts, ← hfield, pattern]
      ring
    refine ⟨⟨?_, by rw [pow_succ]; omega, Or.inr (Nat.le_add_right _ _), ?_⟩, hpattern⟩
    · exact le_add_of_nonneg_right (Int.natCast_nonneg _)
    rwa [hpattern]

/-- Every pattern stands for a number, unless it is decoded to none. -/
theorem encodes_decode {bits : ℕ} (hlt : bits < 2 * f.signBit) (hnan : f.decode bits ≠ .nan) :
    f.Encodes (f.decode bits) bits := by
  obtain ⟨negative, p, hp, rfl⟩ : ∃ negative p, p < f.signBit ∧ bits = f.withSign negative p := by
    by_cases h : bits < f.signBit
    · exact ⟨false, bits, h, rfl⟩
    · refine ⟨true, bits - f.signBit, by omega, ?_⟩
      rw [withSign, if_pos rfl]
      omega
  rw [decode_withSign negative hp] at hnan ⊢
  have hsplit := Nat.div_add_mod p (2 ^ f.fractionBits)
  have hfield : p / 2 ^ f.fractionBits ≤ f.topField := by
    have hlt : p / 2 ^ f.fractionBits < 2 ^ f.exponentBits :=
      Nat.div_lt_of_lt_mul (hp.trans_eq (pow_add 2 _ _))
    exact Nat.le_sub_one_of_lt hlt
  by_cases htop : p / 2 ^ f.fractionBits = f.topField
  · rw [if_pos htop] at hnan ⊢
    have hzero : p % 2 ^ f.fractionBits = 0 := by
      by_contra hne
      exact hnan (if_neg hne)
    have hinfinity : p = f.infinityBits := by
      rw [← hsplit, hzero, htop, Nat.mul_comm]
      rfl
    rw [if_pos hzero, hinfinity]
    exact .infinity negative
  obtain ⟨hsubnormal, hnormal⟩ := holds_of_parts (lt_of_le_of_ne hfield htop)
  rw [if_neg htop]
  split
  next hzero =>
    obtain ⟨holds, hpattern⟩ := hsubnormal hzero
    have hencodes := Encodes.finite negative holds
    rwa [hpattern] at hencodes
  next hpos =>
    obtain ⟨holds, hpattern⟩ := hnormal hpos
    have hencodes := Encodes.finite negative holds
    rwa [hpattern] at hencodes

end BinaryFormat

end Sightline
