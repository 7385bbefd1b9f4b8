import Mathlib.Analysis.SpecialFunctions.Sqrt
import Mathlib.Tactic
import Sightline.Proofs.Single.Storing

/-!
# Operations

Sums, products and square roots of finite singles are the nearest singles to the exact results.
-/

namespace Sightline

namespace Single

open Float.Model (Format UnpackedFloat totalExponent)
open Float.Model.UnpackedFloat

variable {m : ℕ} {e : ℤ}

/-! ### What is rounded already -/

lemma exact_magnitude (hbits : m < 2 ^ 24) (hfits : e ≤ 104) : Exact (magnitude m e) :=
  exact_mul_two_pow hbits (by omega)

lemma roundedSigned_of_exact {z : ℤ} (h : Exact z.natAbs) : roundedSigned z = z := by
  have hrounded := rounded_of_exact h
  rcases le_or_gt 0 z with hz | hz
  · have hcast : (z : ℝ) = (z.natAbs : ℝ) := by
      rw [← Int.cast_natCast, Int.natCast_natAbs, abs_of_nonneg hz]
    rw [roundedSigned_of_nonneg (by exact_mod_cast hz), hcast, hrounded]
    omega
  · have hcast : -(z : ℝ) = (z.natAbs : ℝ) := by
      rw [← Int.cast_natCast, Int.natCast_natAbs, abs_of_neg hz, Int.cast_neg]
    rw [← neg_neg (z : ℝ), roundedSigned_neg, hcast,
      roundedSigned_of_nonneg (Nat.cast_nonneg _), hrounded]
    omega

lemma natAbs_apply (s : Sign) (n : ℕ) : (s.apply (n : ℤ)).natAbs = n := by
  cases s <;> simp [Sign.apply]

/-- An unpacked single that is finite: a zero, or a mantissa and an exponent as they are stored. -/
inductive Bounded : UnpackedFloat → Prop
  | zero (s : Sign) : Bounded (.zero s)
  | finite (s : Sign) (m : ℕ) (e : ℤ) (hm : 0 < m) (h : Canonical (.finite s m e hm)) :
    Bounded (.finite s m e hm)

namespace Bounded

variable {u v : UnpackedFloat}

lemma of_canonical (hu : Canonical u) (hnumber : u ≠ .notANumber)
    (hlt : (unitsOf u).natAbs < reach) : Bounded u := by
  cases u with
  | notANumber => exact absurd rfl hnumber
  | infinity s => exact absurd hlt (by simp [unitsOf, natAbs_apply])
  | zero s => exact .zero s
  | finite s m e hm => exact .finite s m e hm hu

lemma exact (hu : Bounded u) : Exact (unitsOf u).natAbs := by
  cases hu with
  | zero s => exact ⟨reach_pos, dvd_zero _⟩
  | finite s m e hm h =>
    rw [unitsOf, natAbs_apply]
    exact exact_magnitude h.1 h.2.2.1

lemma roundedSigned_units (hu : Bounded u) : roundedSigned (unitsOf u) = unitsOf u :=
  roundedSigned_of_exact hu.exact

lemma stands (hu : Bounded u) : Stands u (unitsOf u) := by
  cases hu with
  | zero s => exact stands_zero s
  | finite s m e hm h => exact ⟨h, by simp, rfl⟩

lemma yields (hu : Bounded u) : Yields u (roundedSigned (unitsOf u)) := by
  rw [hu.roundedSigned_units]
  exact hu.stands.yields

end Bounded

variable {u v : UnpackedFloat}

/-! ### Operations on finite singles -/

lemma yields_add_finite {s s' : Sign} {m m' : ℕ} {e e' : ℤ} {hm : 0 < m} {hm' : 0 < m'}
    (he : -149 ≤ e) (he' : -149 ≤ e') :
    Yields (UnpackedFloat.add Format.binary32 (.finite s m e hm) (.finite s' m' e' hm'))
      (roundedSigned ((s.apply (magnitude m e : ℤ) + s'.apply (magnitude m' e' : ℤ) : ℤ))) := by
  have hlow : -149 ≤ min e e' := le_min he he'
  have hpower : (((2 : ℤ) ^ (min e e' + 149).toNat : ℤ) : ℝ) = 2 ^ (min e e' + 149) := by
    rw [two_zpow_natCast (min e e' + 149).toNat _ (by omega)]
    push_cast
    rfl
  rw [← apply_decreaseExponent s m hlow (min_le_left e e'),
    ← apply_decreaseExponent s' m' hlow (min_le_right e e'), ← add_mul, Int.cast_mul, hpower]
  exact yields_normalize _ _ .positive

lemma yields_add (hu : Bounded u) (hv : Bounded v) :
    Yields (UnpackedFloat.add Format.binary32 u v)
      (roundedSigned ((unitsOf u + unitsOf v : ℤ))) := by
  cases hu with
  | zero s =>
    rw [unitsOf, zero_add]
    cases hv with
    | zero s' => cases s <;> cases s' <;> exact (Bounded.zero _).yields
    | finite s' m' e' hm' h' => exact (Bounded.finite s' m' e' hm' h').yields
  | finite s m e hm h =>
    cases hv with
    | zero s' =>
      rw [unitsOf.eq_3, add_zero]
      exact (Bounded.finite s m e hm h).yields
    | finite s' m' e' hm' h' => exact yields_add_finite h.2.1 h'.2.1

lemma apply_mul_apply (s s' : Sign) (m n : ℕ) :
    s.apply (m : ℤ) * s'.apply (n : ℤ) = (s * s').apply ((m * n : ℕ) : ℤ) := by
  rw [Nat.cast_mul]
  cases s <;> cases s'
  case negative.negative => exact neg_mul_neg _ _
  case negative.positive => exact neg_mul _ _
  case positive.negative => exact mul_neg _ _
  case positive.positive => rfl

lemma log2_mul_ge (hm : 0 < m) {m' : ℕ} (hm' : 0 < m') : m.log2 + m'.log2 ≤ (m * m').log2 := by
  have hlog := (Nat.log2_eq_iff hm.ne').mp rfl
  have hlog' := (Nat.log2_eq_iff hm'.ne').mp rfl
  rw [Nat.le_log2 (Nat.mul_pos hm hm').ne', pow_add]
  exact Nat.mul_le_mul hlog.1 hlog'.1

/-- A product has all bits that are kept: where one factor has few, the other one's exponent leaves
room. -/
lemma yields_mul_finite {s s' : Sign} {m m' : ℕ} {e e' : ℤ} {hm : 0 < m} {hm' : 0 < m'}
    (hu : Canonical (.finite s m e hm)) (hv : Canonical (.finite s' m' e' hm')) :
    Yields (UnpackedFloat.mul Format.binary32 (.finite s m e hm) (.finite s' m' e' hm'))
      (roundedSigned ((s.apply (magnitude m e : ℤ) * s'.apply (magnitude m' e' : ℤ) : ℤ) / one)) := by
  have hlog := log2_mul_ge hm hm'
  have hfull (k : ℕ) (hk : 2 ^ 23 ≤ k) : 23 ≤ k.log2 := (Nat.le_log2 (by omega)).mpr hk
  have hroom : e + e' ≤ max ((m * m').log2 + 1 + (e + e') - 24) (-149) := by
    obtain ⟨-, hlow, hhigh, hnormal⟩ := hu
    obtain ⟨-, hlow', hhigh', hnormal'⟩ := hv
    rcases hnormal with hnormal | rfl
    · have := hfull m hnormal
      omega
    · rcases hnormal' with hnormal' | rfl
      · have := hfull m' hnormal'
        omega
      · omega
  have hvalue : ((m * m' : ℕ) : ℝ) * 2 ^ (e + e' + 149) =
      ((magnitude m e * magnitude m' e' : ℕ) : ℝ) / one := by
    have hone : (one : ℝ) = 2 ^ (149 : ℤ) := (two_zpow_natCast 149 149 rfl).symm
    rw [Nat.cast_mul, Nat.cast_mul, cast_magnitude m hu.2.1, cast_magnitude m' hv.2.1, hone,
      eq_div_iff (zpow_ne_zero _ two_ne_zero), mul_mul_mul_comm, mul_assoc,
      ← zpow_add₀ two_ne_zero, ← zpow_add₀ two_ne_zero]
    congr 2
    ring
  have hround := yields_roundWithAccuracy (s * s') (Nat.mul_pos hm hm') (holds_exact (m * m')) hroom
  rw [hvalue] at hround
  rw [apply_mul_apply, roundedSigned_apply]
  exact hround

lemma yields_mul (hu : Bounded u) (hv : Bounded v) :
    Yields (UnpackedFloat.mul Format.binary32 u v)
      (roundedSigned ((unitsOf u * unitsOf v : ℤ) / one)) := by
  have hzero (s : Sign) : Yields (.zero s) (roundedSigned (((0 : ℤ) : ℝ) / one)) := by
    rw [Int.cast_zero, zero_div, roundedSigned_of_nonneg le_rfl, rounded_zero]
    exact (stands_zero s).yields
  cases hu with
  | zero s =>
    rw [unitsOf.eq_3, zero_mul]
    cases hv with
    | zero s' => exact hzero _
    | finite s' m' e' hm' h' => exact hzero _
  | finite s m e hm h =>
    cases hv with
    | zero s' =>
      rw [unitsOf.eq_3, mul_zero]
      exact hzero _
    | finite s' m' e' hm' h' => exact yields_mul_finite h h'

/-- The whole square root and the remainder tell how the square root goes on. -/
lemma holds_sqrt (n : ℕ) :
    Holds (ExtendedMantissa.ofMantissaAndAccuracy n.sqrt
      (if n - n.sqrt * n.sqrt = 0 then .exact
        else .inexact (if n - n.sqrt * n.sqrt ≤ n.sqrt then .lt else .gt))) √n := by
  have hwhole : n.sqrt * n.sqrt ≤ n := Nat.sqrt_le n
  have hnext : √(n : ℝ) < n.sqrt + 1 := Real.real_sqrt_lt_nat_sqrt_succ
  have hsquare : √(n : ℝ) * √n = n := Real.mul_self_sqrt (Nat.cast_nonneg n)
  have hroot : (0 : ℝ) ≤ n.sqrt := Nat.cast_nonneg _
  split_ifs with hzero hhalf
  · have hexact : (n : ℝ) = n.sqrt * n.sqrt := by
      exact_mod_cast (by omega : n = n.sqrt * n.sqrt)
    rw [(Real.sqrt_eq_iff_mul_self_eq (Nat.cast_nonneg _) hroot).mpr hexact]
    exact holds_exact _
  · have hlow : (n.sqrt : ℝ) * n.sqrt < n := by
      exact_mod_cast (by omega : n.sqrt * n.sqrt < n)
    have hhigh : (n : ℝ) ≤ n.sqrt * n.sqrt + n.sqrt := by
      exact_mod_cast (by omega : n ≤ n.sqrt * n.sqrt + n.sqrt)
    have habove : (n.sqrt : ℝ) < √n := Real.lt_sqrt_of_sq_lt (by rwa [sq])
    have hbelow : √(n : ℝ) < n.sqrt + 1 / 2 := by
      rw [Real.sqrt_lt' (by linarith)]
      linarith
    exact ⟨√n - n.sqrt, ⟨by linarith, by linarith⟩, iff_of_true rfl (by linarith),
      by simp [ExtendedMantissa.ofMantissaAndAccuracy]⟩
  · have hlow : (n.sqrt : ℝ) * n.sqrt + n.sqrt + 1 ≤ n := by
      exact_mod_cast (by omega : n.sqrt * n.sqrt + n.sqrt + 1 ≤ n)
    have habove : (n.sqrt : ℝ) + 1 / 2 < √n := Real.lt_sqrt_of_sq_lt (by linarith)
    exact ⟨√n - n.sqrt - 1 / 2, ⟨by linarith, by linarith⟩, iff_of_true rfl (by linarith),
      by simp [ExtendedMantissa.ofMantissaAndAccuracy]⟩

/-- Enough bits of a square root are found: the exponent is chosen for it. -/
lemma yields_sqrt_finite {m : ℕ} {e : ℤ} (hm : 0 < m) (he : -149 ≤ e) :
    Yields (UnpackedFloat.sqrt Format.binary32 (.finite .positive m e hm))
      (roundedSigned √(magnitude m e * one)) := by
  set t : ℤ := min (e.ediv 2) (Format.binary32.targetExponent ((totalExponent m e + 1).ediv 2))
    with ht
  have hchosen : t = min (e / 2) (max ((m.log2 + 1 + e + 1) / 2 - 24) (-149)) := rfl
  set k : ℕ := (e - 2 * t).toNat with hk
  have hexponent : (k : ℤ) = e - 2 * t := by omega
  have hlength : (m <<< k).log2 = m.log2 + k := log2_shiftLeft hm k
  have hpos : 0 < m <<< k := by
    rw [Nat.shiftLeft_eq]
    exact Nat.mul_pos hm (Nat.two_pow_pos _)
  have hroot : 0 < (m <<< k).sqrt := Nat.sqrt_pos.mpr hpos
  have hlog : (m <<< k).log2 / 2 ≤ (m <<< k).sqrt.log2 := by
    rw [Nat.le_log2 hroot.ne', Nat.le_sqrt, ← pow_add]
    exact (Nat.pow_le_pow_right Nat.zero_lt_two (by omega)).trans (Nat.log2_self_le hpos.ne')
  have hvalue : √(m <<< k : ℕ) * 2 ^ (t + 149) = √(magnitude m e * one) := by
    have hone : (one : ℝ) = 2 ^ (149 : ℤ) := (two_zpow_natCast 149 149 rfl).symm
    have hpower : (0 : ℝ) ≤ 2 ^ (t + 149) := (zpow_pos two_pos _).le
    rw [cast_magnitude m he, hone, Nat.shiftLeft_eq, Nat.cast_mul, ← two_zpow_natCast k k rfl,
      hexponent, ← Real.sqrt_sq hpower, ← Real.sqrt_mul (by positivity), sq, mul_assoc, mul_assoc,
      ← zpow_add₀ two_ne_zero, ← zpow_add₀ two_ne_zero, ← zpow_add₀ two_ne_zero]
    congr 3
    ring
  have hround := yields_roundWithAccuracy .positive (e := t) hroot (holds_sqrt (m <<< k)) (by omega)
  rw [hvalue, Sign.apply, ← roundedSigned_of_nonneg (Real.sqrt_nonneg _)] at hround
  exact hround

lemma yields_sqrt (hu : Bounded u) (hnonneg : 0 ≤ unitsOf u) :
    Yields (UnpackedFloat.sqrt Format.binary32 u) (roundedSigned √(unitsOf u * one)) := by
  cases hu with
  | zero s =>
    rw [unitsOf.eq_3, Int.cast_zero, zero_mul, Real.sqrt_zero, roundedSigned_of_nonneg le_rfl,
      rounded_zero]
    exact (stands_zero s).yields
  | finite s m e hm h =>
    cases s with
    | negative =>
      have hpos := magnitude_pos hm e
      rw [unitsOf, Sign.apply] at hnonneg
      omega
    | positive => exact yields_sqrt_finite hm h.2.1

end Single

end Sightline
