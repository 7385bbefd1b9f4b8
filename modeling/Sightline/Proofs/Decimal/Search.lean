import Mathlib.Tactic
import Sightline.Proofs.Decimal.Rounding

/-!
# The search for the shortest decimal

Grids are tried from coarse to fine. Whatever a grid yields lies in the interval around the number,
and the last grid that is tried is finer than the interval, so some grid yields a point.
-/

namespace Sightline

namespace Shortest

variable {f : BinaryFormat} {i : Interval} {m d n : ℕ} {q k : ℤ}

/-! ### One grid -/

/-- The number that a grid point stands for, in the units of an interval. -/
def gridPoint (q k : ℤ) (d : ℕ) : ℚ := d * 10 ^ k / 2 ^ (q - 2)

/-- The measures of an interval and of a grid have one scale. -/
lemma cast_step (q k : ℤ) : (step q k : ℚ) = 10 ^ k / 2 ^ (q - 2) * unit q k := by
  have hunit : (2 : ℚ) ^ (q - 2) ≠ 0 := zpow_ne_zero _ two_ne_zero
  have hten := cast_powerUp (b := 10) (by norm_num) k
  have htwo := cast_powerUp two_pos (q - 2)
  rw [step, unit, Nat.cast_mul, Nat.cast_mul, hten, htwo]
  push_cast
  field_simp

lemma unit_pos (q k : ℤ) : 0 < unit q k :=
  Nat.mul_pos (powerUp_pos two_pos _) (powerDown_pos (by norm_num) _)

lemma step_pos (q k : ℤ) : 0 < step q k :=
  Nat.mul_pos (powerUp_pos (by norm_num) _) (powerDown_pos two_pos _)

lemma gridPoint_succ (q k : ℤ) (d : ℕ) :
    gridPoint q k (d + 1) = gridPoint q k d + 10 ^ k / 2 ^ (q - 2) := by
  rw [gridPoint, gridPoint]
  push_cast
  ring

lemma le_gridPoint_iff : n * unit q k ≤ d * step q k ↔ (n : ℚ) ≤ gridPoint q k d := by
  have hpos : (0 : ℚ) < unit q k := by exact_mod_cast unit_pos q k
  rw [← Nat.cast_le (α := ℚ), Nat.cast_mul, Nat.cast_mul, cast_step, ← mul_assoc,
    mul_le_mul_iff_of_pos_right hpos, gridPoint, mul_div_assoc]

lemma gridPoint_le_iff : d * step q k ≤ n * unit q k ↔ gridPoint q k d ≤ n := by
  have hpos : (0 : ℚ) < unit q k := by exact_mod_cast unit_pos q k
  rw [← Nat.cast_le (α := ℚ), Nat.cast_mul, Nat.cast_mul, cast_step, ← mul_assoc,
    mul_le_mul_iff_of_pos_right hpos, gridPoint, mul_div_assoc]

lemma lt_gridPoint_iff : n * unit q k < d * step q k ↔ (n : ℚ) < gridPoint q k d := by
  rw [← not_le, gridPoint_le_iff, not_le]

lemma gridPoint_lt_iff : d * step q k < n * unit q k ↔ gridPoint q k d < n := by
  rw [← not_le, le_gridPoint_iff, not_le]

/-- The test whether a grid point lies in an interval. -/
def Interval.inside (i : Interval) (q k : ℤ) (d : ℕ) : Bool :=
  if i.closed then i.lower * unit q k ≤ d * step q k && d * step q k ≤ i.upper * unit q k
  else i.lower * unit q k < d * step q k && d * step q k < i.upper * unit q k

lemma Interval.inside_iff : i.inside q k d = true ↔ i.Contains (gridPoint q k d) := by
  unfold inside
  simp only [le_gridPoint_iff, gridPoint_le_iff, lt_gridPoint_iff, gridPoint_lt_iff]
  cases hclosed : i.closed with
  | true =>
    rw [if_pos rfl, Bool.and_eq_true, decide_eq_true_iff, decide_eq_true_iff]
    exact ⟨fun h => ⟨h.1, h.2, by simp [hclosed]⟩, fun h => ⟨h.lower, h.upper⟩⟩
  | false =>
    rw [if_neg Bool.false_ne_true, Bool.and_eq_true, decide_eq_true_iff, decide_eq_true_iff]
    exact ⟨fun h => ⟨h.1.le, h.2.le, fun _ => h⟩, fun h => h.strict hclosed⟩

/-- The grid point at or right below the number. -/
def Interval.below (i : Interval) (q k : ℤ) : ℕ := i.value * unit q k / step q k

lemma onGrid?_eq (i : Interval) (q k : ℤ) :
    onGrid? i q k = match i.inside q k (i.below q k), i.inside q k (i.below q k + 1) with
      | true, true => some (if 2 * (i.value * unit q k % step q k) < step q k then i.below q k
          else i.below q k + 1)
      | true, false => some (i.below q k)
      | false, true => some (i.below q k + 1)
      | false, false => none := rfl

/-- What a grid yields lies in the interval. -/
lemma contains_of_onGrid? (h : onGrid? i q k = some d) : i.Contains (gridPoint q k d) := by
  rw [onGrid?_eq] at h
  split at h
  next hbelow habove =>
    split at h
    · exact Option.some.inj h ▸ Interval.inside_iff.mp hbelow
    · exact Option.some.inj h ▸ Interval.inside_iff.mp habove
  next hbelow _ => exact Option.some.inj h ▸ Interval.inside_iff.mp hbelow
  next _ habove => exact Option.some.inj h ▸ Interval.inside_iff.mp habove
  next => cases h

/-- A grid that is finer than the part of the interval below the number yields something. -/
lemma onGrid?_isSome (hlower : i.lower + 1 ≤ i.value) (hupper : i.value < i.upper)
    (hfine : (10 : ℚ) ^ k ≤ 2 ^ (q - 2)) : (onGrid? i q k).isSome = true := by
  have hbelow : i.inside q k (i.below q k) = true := by
    have hunit : (0 : ℚ) < 2 ^ (q - 2) := zpow_pos two_pos _
    have hstep : (10 : ℚ) ^ k / 2 ^ (q - 2) ≤ 1 := (div_le_one hunit).mpr hfine
    have hle : gridPoint q k (i.below q k) ≤ i.value :=
      gridPoint_le_iff.mp (Nat.div_mul_le_self _ _)
    have hnext : (i.value : ℚ) < gridPoint q k (i.below q k + 1) := by
      have hlt := Nat.lt_mul_div_succ (i.value * unit q k) (step_pos q k)
      exact lt_gridPoint_iff.mp (hlt.trans_eq (Nat.mul_comm _ _))
    rw [gridPoint_succ] at hnext
    have hlower : (i.lower : ℚ) + 1 ≤ i.value := by exact_mod_cast hlower
    have hupper : (i.value : ℚ) < i.upper := by exact_mod_cast hupper
    exact Interval.inside_iff.mpr ⟨by linarith, by linarith, fun _ => ⟨by linarith, by linarith⟩⟩
  rw [onGrid?_eq, hbelow]
  cases i.inside q k (i.below q k + 1) <;> rfl

/-! ### All grids -/

/-- If one of the grids that are tried yields something, the search ends at a grid that does. -/
lemma search_eq {grids : ℕ} (h : ∃ j < grids, (onGrid? i q (k - j)).isSome = true) :
    ∃ d k', search i q grids k = (d, k') ∧ onGrid? i q k' = some d := by
  induction grids generalizing k with
  | zero =>
    obtain ⟨j, hj, -⟩ := h
    omega
  | succ grids ih =>
    unfold search
    cases hfirst : onGrid? i q k with
    | some d => exact ⟨d, k, rfl, hfirst⟩
    | none =>
      refine ih ?_
      obtain ⟨j, hj, hsome⟩ := h
      cases j with
      | zero => simp [hfirst] at hsome
      | succ j =>
        refine ⟨j, by omega, ?_⟩
        rwa [sub_sub, add_comm 1, ← Nat.cast_succ]

/-- Powers of ten against powers of two: the tenth power of ten lies between `2 ^ 33` and
`2 ^ 34`. -/
lemma ten_zpow_le_two_zpow {a b : ℤ} (hup : 34 * a ≤ 10 * b) (hdown : 33 * a ≤ 10 * b) :
    (10 : ℚ) ^ a ≤ 2 ^ b := by
  have htenth (x : ℚ) (e : ℤ) : (x ^ e) ^ 10 = (x ^ (10 : ℤ)) ^ e := by
    rw [← zpow_natCast, ← zpow_mul, ← zpow_mul, mul_comm]
    rfl
  refine le_of_pow_le_pow_left₀ (n := 10) (by norm_num) (by positivity) ?_
  have htwo : ((2 : ℚ) ^ b) ^ 10 = 2 ^ (10 * b) := by
    rw [← zpow_natCast, ← zpow_mul, mul_comm]
    rfl
  rw [htenth, htwo]
  rcases le_total 0 a with hpos | hneg
  · calc ((10 : ℚ) ^ (10 : ℤ)) ^ a ≤ (2 ^ (34 : ℤ)) ^ a :=
        zpow_le_zpow_left₀ hpos (by positivity) (by norm_num)
      _ = 2 ^ (34 * a) := (zpow_mul 2 34 a).symm
      _ ≤ 2 ^ (10 * b) := zpow_le_zpow_right₀ one_le_two hup
  · calc ((10 : ℚ) ^ (10 : ℤ)) ^ a = (((10 : ℚ) ^ (10 : ℤ)) ^ (-a))⁻¹ := by rw [zpow_neg, inv_inv]
      _ ≤ (((2 : ℚ) ^ (33 : ℤ)) ^ (-a))⁻¹ := inv_anti₀ (by positivity)
        (zpow_le_zpow_left₀ (by omega) (by positivity) (by norm_num))
      _ = 2 ^ (33 * a) := by rw [zpow_neg, inv_inv, zpow_mul]
      _ ≤ 2 ^ (10 * b) := zpow_le_zpow_right₀ one_le_two hdown

lemma two_zpow_le_ten_zpow {a b : ℤ} (hup : 10 * b ≤ 34 * a) (hdown : 10 * b ≤ 33 * a) :
    (2 : ℚ) ^ b ≤ 10 ^ a := by
  have hinverse : (10 : ℚ) ^ (-a) ≤ 2 ^ (-b) := ten_zpow_le_two_zpow (by omega) (by omega)
  rw [zpow_neg, zpow_neg] at hinverse
  exact (inv_le_inv₀ (by positivity) (by positivity)).mp hinverse

/-- The exponents that the formats in use ask for. -/
lemma exponent_bounds (hf : f = .single ∨ f = .double) (h : f.Holds m q) :
    23 ≤ f.fractionBits ∧ f.precision = f.fractionBits + 1 ∧ -1074 ≤ q ∧
      f.fractionBits + q ≤ 1024 := by
  have hleast := h.least
  have hgreatest := h.exponent_lt
  rcases hf with rfl | rfl
  · have hfraction : BinaryFormat.single.fractionBits = 23 := rfl
    have hexponent : BinaryFormat.single.leastExponent = -149 := rfl
    have htop : BinaryFormat.single.topField = 255 := rfl
    exact ⟨hfraction.ge, rfl, by omega, by omega⟩
  · have hfraction : BinaryFormat.double.fractionBits = 52 := rfl
    have hexponent : BinaryFormat.double.leastExponent = -1074 := rfl
    have htop : BinaryFormat.double.topField = 2047 := rfl
    exact ⟨by omega, rfl, by omega, by omega⟩

/-- The last grid that is tried is finer than the interval. -/
lemma last_grid_fine (hf : f = .single ∨ f = .double) (h : f.Holds m q) :
    (10 : ℚ) ^ (((m.log2 : ℤ) + q + 1) * 30103 / 100000 + 1 - (f.precision - 1 : ℕ)) ≤
      2 ^ (q - 2) := by
  have hbits : m.log2 ≤ f.fractionBits := by
    rcases Nat.eq_zero_or_pos m with rfl | hm
    · simp
    · exact Nat.le_of_lt_succ ((Nat.log2_lt hm.ne').mpr h.lt)
  obtain ⟨hfraction, hprecision, hleast, hgreatest⟩ := exponent_bounds hf h
  exact ten_zpow_le_two_zpow (by omega) (by omega)

/-- The shortest decimal for a number lies in the interval around it. -/
theorem decimal_contains (hf : f = .single ∨ f = .double) (h : f.Holds m q) (hm : 0 < m) :
    ∃ d k, decimal f m q = (d, k) ∧ (interval f m q).Contains (gridPoint q k d) := by
  have hprecision : f.precision - 1 < f.precision := by
    obtain ⟨-, hprecision, -⟩ := exponent_bounds hf h
    omega
  have hlower : (interval f m q).lower + 1 ≤ (interval f m q).value := by
    unfold interval
    dsimp only
    split <;> omega
  have hupper : (interval f m q).value < (interval f m q).upper := by
    simp [interval]
  obtain ⟨d, k, hsearch, hgrid⟩ := search_eq
    ⟨f.precision - 1, hprecision, onGrid?_isSome hlower hupper (last_grid_fine hf h)⟩
  refine ⟨d, k, ?_, contains_of_onGrid? hgrid⟩
  rw [decimal, if_neg hm.ne', hsearch]

end Shortest

end Sightline
