import Mathlib.Data.EReal.Basic
import Mathlib.Tactic
import Sightline.Proofs.Geometry.Euclidean
import Sightline.Proofs.Single.Whole
import Sightline.Proofs.Terrain.Spans

/-!
# Spans in single precision

On axes of up to `2 ^ 24` cells a span is not affected by rounding: floors and ceilings are exact,
the number of cells is a single, and going one down from a ceiling only rounds where it is past the
last cell anyway. So the span of two singles is the span of the numbers they stand for, and what is
known of spans over the real numbers holds of it, with infinities at either end.
-/

namespace Sightline

namespace Footprint

attribute [local instance] Scalar.ofField
attribute [-instance] Scalar.toAdd Scalar.toSub Scalar.toMul Scalar.toDiv Scalar.toNeg Scalar.toLT
  Scalar.toLE Scalar.toBEq

open Single

variable {lo hi : Float32} {n : ℕ}

/-! ### Indices -/

lemma isWhole_last (hn : n ≤ 2 ^ 24) (hpos : n ≠ 0) : IsWhole (Single.ofNat n - 1) (n - 1) := by
  have h := Single.ofNat_sub_one hn (Nat.pos_of_ne_zero hpos)
  rwa [Nat.cast_pred (Nat.pos_of_ne_zero hpos)] at h

lemma isWhole_floor_max (hlo : IsNumber lo) :
    IsWhole (Single.floor (Scalar.max lo 0)) ⌊max (value lo) 0⌋ := by
  obtain ⟨hnumber, hvalue⟩ := value_max hlo isNumber_zero
  rw [value_zero] at hvalue
  exact hvalue ▸ isWhole_floor hnumber

/-- The least index of a span does not round. -/
lemma isWhole_lowestCell (hlo : IsNumber lo) (hn : n ≤ 2 ^ 24) (hpos : n ≠ 0) :
    IsWhole (lowestCell lo (Single.ofNat n)) (leastIndex (value lo) n) := by
  have hread : lowestCell lo (Single.ofNat n) =
      Scalar.min (Single.floor (Scalar.max lo 0)) (Single.ofNat n - 1) := rfl
  have hfloor := isWhole_floor_max hlo
  have hlast := isWhole_last hn hpos
  obtain ⟨hnumber, hvalue⟩ := value_min hfloor.1 hlast.1
  rw [hfloor.value_eq, hlast.value_eq, ← Int.cast_min] at hvalue
  rw [hread]
  exact isWhole_of_value hnumber hvalue

/-- Going one down from a ceiling rounds only past the axis. -/
lemma value_ceil_sub_one (hhi : IsNumber hi) (hnonneg : 0 ≤ value hi) (hn : n ≤ 2 ^ 24) :
    IsNumber (Single.ceil hi - 1) ∧ min (value (Single.ceil hi - 1)) ((n - 1 : ℤ) : ℝ) =
      (min (⌈value hi⌉ - 1) (n - 1) : ℤ) := by
  have hceil := isWhole_ceil hhi
  have hone := isWhole_one.neg
  have hfinite : IsFinite (-1) := hone.isFinite (by decide)
  rw [Single.sub_eq_add_neg]
  rcases le_or_gt ⌈value hi⌉ (2 ^ 24) with hsmall | hlarge
  · have hrange : 0 ≤ ⌈value hi⌉ := Int.ceil_nonneg hnonneg
    have hexact := hceil.add hone (hceil.isFinite (by omega)) hfinite (by omega)
    rw [hexact.value_eq, ← Int.cast_min, ← Int.sub_eq_add_neg]
    exact ⟨hexact.1, rfl⟩
  · have htop := isWhole_last le_rfl (by omega : 2 ^ 24 ≠ 0)
    have hnumber := isNumber_add hceil.1 hfinite
    have hle : Single.ofNat (2 ^ 24) - 1 ≤ Single.ceil hi + -1 := by
      have hwhole := isWhole_ofNat (n := 2 ^ 24) le_rfl
      rw [Single.sub_eq_add_neg] at htop ⊢
      refine add_le_add_single htop.1 hnumber ?_ (le_refl_single hone.1)
      rw [le_iff_value hwhole.1 hceil.1, hwhole.value_eq, hceil.value_eq]
      exact_mod_cast hlarge.le
    rw [le_iff_value htop.1 hnumber, htop.value_eq] at hle
    have hlast : ((n - 1 : ℤ) : ℝ) ≤ value (Single.ceil hi + -1) := by
      refine le_trans ?_ hle
      exact_mod_cast (by omega : (n - 1 : ℤ) ≤ (2 ^ 24 : ℕ) - 1)
    rw [min_eq_right hlast, min_eq_right (by omega)]
    exact ⟨hnumber, rfl⟩

/-- The greatest index of a span does not round on the axis. -/
lemma value_reach (hlo : IsNumber lo) (hhi : IsNumber hi) (hnonneg : 0 ≤ value hi)
    (hn : n ≤ 2 ^ 24) : IsNumber (reach lo hi) ∧ min (value (reach lo hi)) ((n - 1 : ℤ) : ℝ) =
      (min (reachIndex (value lo) (value hi)) (n - 1) : ℤ) := by
  have hread : reach lo hi = if lo < hi then Single.ceil hi - 1
      else Single.floor (Scalar.max lo 0) := rfl
  rw [hread, reachIndex]
  by_cases hlt : lo < hi
  · rw [if_pos hlt, if_pos ((lt_iff_value hlo hhi).mp hlt)]
    exact value_ceil_sub_one hhi hnonneg hn
  · have hfloor := isWhole_floor_max hlo
    rw [if_neg hlt, if_neg ((lt_iff_value hlo hhi).not.mp hlt), hfloor.value_eq, Int.cast_min]
    exact ⟨hfloor.1, rfl⟩

/-! ### Spans -/

/-- The span of two singles is that of the numbers they stand for. -/
lemma span?_value (hlo : IsNumber lo) (hhi : IsNumber hi) (hn : n ≤ 2 ^ 24) :
    span? lo hi n = span? (value lo) (value hi) n := by
  have hcells := isWhole_ofNat hn
  have houtside : (n = 0 ∨ hi < 0 ∨ Single.ofNat n < lo) ↔
      (n = 0 ∨ value hi < 0 ∨ (n : ℝ) < value lo) := by
    rw [lt_iff_value hhi isNumber_zero, lt_iff_value hcells.1 hlo, value_zero, hcells.value_eq,
      Int.cast_natCast]
  have hread : span? lo hi n = if n = 0 ∨ hi < 0 ∨ Single.ofNat n < lo then none
      else some ⟨Single.toNat (lowestCell lo (Single.ofNat n)),
        Single.toNat (Scalar.clamp (reach lo hi) (lowestCell lo (Single.ofNat n))
          (Single.ofNat n - 1))⟩ := rfl
  rw [hread, span?_field]
  by_cases h : n = 0 ∨ value hi < 0 ∨ (n : ℝ) < value lo
  · rw [if_pos (houtside.mpr h), if_pos h]
  · rw [if_neg (houtside.not.mpr h), if_neg h]
    push Not at h
    obtain ⟨hpos, hnonneg, -⟩ := h
    have hlast := isWhole_last hn hpos
    have hfirst := isWhole_lowestCell hlo hn hpos
    obtain ⟨hreach, hmin⟩ := value_reach hlo hhi hnonneg hn
    have hle : leastIndex (value lo) n ≤ n - 1 := min_le_right _ _
    have hleast := leastIndex_nonneg (value lo) hpos
    have hgreatest : IsWhole (Scalar.clamp (reach lo hi) (lowestCell lo (Single.ofNat n))
        (Single.ofNat n - 1)) (greatestIndex (value lo) (value hi) n) := by
      obtain ⟨hnumber, hvalue⟩ := value_clamp hreach hfirst.1 hlast.1 (by
        rw [hfirst.value_eq, hlast.value_eq]
        exact Int.cast_le.mpr hle)
      rw [hfirst.value_eq, hlast.value_eq, hmin, ← Int.cast_max] at hvalue
      exact isWhole_of_value hnumber hvalue
    have hbound : greatestIndex (value lo) (value hi) n ≤ n - 1 := max_le hle (min_le_right _ _)
    rw [hfirst.toNat_eq hleast (by omega),
      hgreatest.toNat_eq (hleast.trans (le_max_left _ _)) (by omega)]

/-! ### Intervals -/

/-- The real numbers from one single to another; from or to an infinity there is no end. -/
def between (lo hi : Float32) : Set ℝ := {r | extended lo ≤ r ∧ (r : EReal) ≤ extended hi}

/-- On an axis an infinity is as good as the number it counts as. -/
lemma mem_between_iff (hlo : IsNumber lo) (hhi : IsNumber hi) (hn : n ≤ 2 ^ 24) {r : ℝ}
    (hr : 0 ≤ r ∧ r ≤ n) : r ∈ between lo hi ↔ value lo ≤ r ∧ r ≤ value hi := by
  have hsmall : |r| < 2 ^ 128 :=
    calc |r| = r := abs_of_nonneg hr.1
      _ ≤ n := hr.2
      _ ≤ 2 ^ 24 := by exact_mod_cast hn
      _ < 2 ^ 128 := by norm_num
  rw [between, Set.mem_ofPred_eq, (extended_le_iff hlo hsmall).1, (extended_le_iff hhi hsmall).2]

/-- A span covers what an interval has on an axis, and nothing that the interval does not reach. -/
structure Fits (span : Span) (lo hi : Float32) (n : ℕ) : Prop where
  /-- It is not empty. -/
  first_le_last : span.first ≤ span.last
  /-- It stays on the axis. -/
  last_lt : span.last < n
  /-- Every number of the interval on the axis lies in one of its unit intervals. -/
  covers : ∀ r ∈ between lo hi ∩ Set.Icc 0 (n : ℝ),
    ∃ k, span.first ≤ k ∧ k ≤ span.last ∧ r ∈ Set.Icc (k : ℝ) (k + 1)
  /-- Every one of its unit intervals meets the interval. -/
  meets : ∀ k, span.first ≤ k → k ≤ span.last →
    (Set.Icc (k : ℝ) (k + 1) ∩ between lo hi).Nonempty

/-- There is no span exactly where the interval does not meet the axis, or the axis has no cells. -/
lemma span?_eq_none_iff (hle : lo ≤ hi) (hn : n ≤ 2 ^ 24) :
    span? lo hi n = none ↔ n = 0 ∨ Disjoint (between lo hi) (Set.Icc 0 (n : ℝ)) := by
  obtain ⟨⟨hlo, hhi⟩, -⟩ := le_iff.mp hle
  have horder := (le_iff_value hlo hhi).mp hle
  have hnone : span? lo hi n = none ↔ n = 0 ∨ value hi < 0 ∨ (n : ℝ) < value lo := by
    rw [span?_value hlo hhi hn, span?_field]
    split_ifs with h
    · exact iff_of_true rfl h
    · exact iff_of_false (by simp) h
  rw [hnone]
  refine or_congr_right ⟨fun houtside => ?_, fun hdisjoint => ?_⟩
  · rw [Set.disjoint_left]
    intro r hr hr'
    rw [mem_between_iff hlo hhi hn hr'] at hr
    rcases houtside with h | h
    · linarith [hr.2, hr'.1]
    · linarith [hr.1, hr'.2]
  · -- otherwise the start of the interval on the axis is common to both
    by_contra hmeets
    push Not at hmeets
    have hcommon : max (value lo) 0 ∈ Set.Icc 0 (n : ℝ) :=
      ⟨le_max_right _ _, max_le hmeets.2 (Nat.cast_nonneg n)⟩
    refine Set.disjoint_left.mp hdisjoint ?_ hcommon
    rw [mem_between_iff hlo hhi hn hcommon]
    exact ⟨le_max_left _ _, max_le horder hmeets.1⟩

lemma fits_of_span? (hle : lo ≤ hi) (hn : n ≤ 2 ^ 24) {span : Span}
    (hspan : span? lo hi n = some span) : Fits span lo hi n := by
  obtain ⟨⟨hlo, hhi⟩, -⟩ := le_iff.mp hle
  have horder := (le_iff_value hlo hhi).mp hle
  rw [span?_value hlo hhi hn] at hspan
  obtain ⟨⟨hpos, -, -⟩, hfirst, hlast⟩ := span?_eq_some hspan
  have hbelow : greatestIndex (value lo) (value hi) n ≤ n - 1 :=
    max_le (min_le_right _ _) (min_le_right _ _)
  have hordered : leastIndex (value lo) n ≤ greatestIndex (value lo) (value hi) n :=
    le_max_left _ _
  refine ⟨by omega, by omega, ?_, ?_⟩
  · rintro r ⟨hr, hr'⟩
    rw [mem_between_iff hlo hhi hn hr'] at hr
    obtain ⟨span', hspan', k, hk⟩ := exists_index hr.1 hr.2 hr'.1 hr'.2 hpos
    obtain rfl : span = span' := Option.some.inj (hspan.symm.trans hspan')
    exact ⟨k, hk⟩
  · intro k hk hk'
    obtain ⟨r, hr, hr', hunit⟩ := exists_mem_of_index hspan horder hk hk'
    have haxis : 0 ≤ r ∧ r ≤ n := by
      have hcell : ((k + 1 : ℕ) : ℝ) ≤ n := Nat.cast_le.mpr (by omega)
      push_cast at hcell
      exact ⟨(Nat.cast_nonneg k).trans hunit.1, hunit.2.trans hcell⟩
    exact ⟨r, hunit, (mem_between_iff hlo hhi hn haxis).mpr ⟨hr, hr'⟩⟩

/-- On axes of up to `2 ^ 24` cells, single precision finds a span exactly where the interval meets
the axis, and the span fits it, wherever the ends of the interval lie. -/
theorem span?_fits (hle : lo ≤ hi) (hn : n ≤ 2 ^ 24) :
    (span? lo hi n = none ↔ n = 0 ∨ Disjoint (between lo hi) (Set.Icc 0 (n : ℝ))) ∧
    ∀ span, span? lo hi n = some span → Fits span lo hi n :=
  ⟨span?_eq_none_iff hle hn, fun _ hspan => fits_of_span? hle hn hspan⟩

/-- An interval without a lower end that stops on the border of two cells, on an axis of the greatest
length; and one that is a single point at the far end of the axis. -/
theorem span?_fits_borders :
    let n := 2 ^ 24
    let far : Float32 := 16777216
    (-Single.infinity ≤ (2 : Float32) ∧ far ≤ far ∧ n ≤ 2 ^ 24) ∧
    Fits ⟨0, 1⟩ (-Single.infinity) 2 n ∧ Fits ⟨n - 1, n - 1⟩ far far n := by
  intro n far
  have hleft : -Single.infinity ≤ (2 : Float32) := by decide +kernel
  have hright : far ≤ far := by decide +kernel
  exact ⟨⟨hleft, hright, le_rfl⟩, (span?_fits hleft le_rfl).2 _ (by decide +kernel),
    (span?_fits hright le_rfl).2 _ (by decide +kernel)⟩

end Footprint

end Sightline
