import Mathlib.Tactic
import Sightline.Proofs.Scalar.Field
import Sightline.Terrain.Footprint

/-!
# Spans of an axis

Over an ordered field the span of an interval is read off whole numbers: its unit intervals cover
what the interval has on the axis, and each of them meets the interval. The borders of cells count
for the cells on both sides of them here, since these are closed.
-/

namespace Sightline

namespace Footprint

variable {K : Type} [Field K] [LinearOrder K] [FloorRing K]

/-! ### Indices as whole numbers -/

/-- The least index of a span, as a whole number. -/
def leastIndex (lo : K) (cells : ℕ) : ℤ := min ⌊max lo 0⌋ (cells - 1)

/-- The greatest index of a span before it is held against the axis. -/
def reachIndex (lo hi : K) : ℤ := if lo < hi then ⌈hi⌉ - 1 else ⌊max lo 0⌋

/-- The greatest index of a span, as a whole number. -/
def greatestIndex (lo hi : K) (cells : ℕ) : ℤ :=
  max (leastIndex lo cells) (min (reachIndex lo hi) (cells - 1))

variable {lo hi r : K} {n : ℕ}

lemma leastIndex_nonneg [IsStrictOrderedRing K] (lo : K) (hn : n ≠ 0) : 0 ≤ leastIndex lo n :=
  le_min (Int.floor_nonneg.mpr (le_max_right _ _)) (by omega)

variable [IsStrictOrderedRing K]

/-- The span starts no later than the interval. -/
lemma leastIndex_le (lo : K) (n : ℕ) : (leastIndex lo n : K) ≤ max lo 0 :=
  (Int.cast_le.mpr (min_le_left _ _)).trans (Int.floor_le _)

/-- Its first unit interval reaches the start of the interval. -/
lemma le_leastIndex_add_one (hlo : lo ≤ n) : lo ≤ leastIndex lo n + 1 := by
  rcases min_choice ⌊max lo 0⌋ ((n : ℤ) - 1) with hmin | hmin
  · rw [leastIndex, hmin]
    exact (le_max_left _ _).trans (Int.lt_floor_add_one _).le
  · rw [leastIndex, hmin]
    push_cast
    linarith

/-- The span ends no later than the interval. -/
lemma reachIndex_le (hle : lo ≤ hi) (hhi : 0 ≤ hi) : (reachIndex lo hi : K) ≤ hi := by
  rw [reachIndex]
  split_ifs
  · have := Int.ceil_lt_add_one hi
    push_cast
    linarith
  · exact (Int.floor_le _).trans (max_le hle hhi)

omit [IsStrictOrderedRing K] in
/-- The last unit interval below a number of the interval is not past the reach. -/
lemma ceil_sub_one_le_reachIndex (hlo : lo ≤ r) (hhi : r ≤ hi) (hzero : 0 ≤ r) :
    ⌈r⌉ - 1 ≤ reachIndex lo hi := by
  rw [reachIndex]
  split_ifs with hlt
  · exact Int.sub_le_sub_right (Int.ceil_mono hhi) 1
  · obtain rfl : r = lo := le_antisymm (hhi.trans (not_lt.mp hlt)) hlo
    rw [max_eq_left hzero]
    exact sub_le_iff_le_add.mpr (Int.ceil_le_floor_add_one r)

/-- The last unit interval that starts below a number holds it, and so does the first one of the span
if that one starts later. -/
lemma unit_of_index {k : ℕ} (hk : (k : ℤ) = max (leastIndex lo n) (⌈r⌉ - 1)) (hlo : lo ≤ r)
    (hzero : 0 ≤ r) : (k : K) ≤ r ∧ r ≤ k + 1 := by
  have hcast : (k : K) = ((max (leastIndex lo n) (⌈r⌉ - 1) : ℤ) : K) := by
    rw [← hk, Int.cast_natCast]
  constructor
  · rw [hcast, Int.cast_max]
    refine max_le ((leastIndex_le lo n).trans (max_le hlo hzero)) ?_
    have := Int.ceil_lt_add_one r
    push_cast
    linarith
  · have hle : ((⌈r⌉ - 1 : ℤ) : K) ≤ k := by
      rw [hcast]
      exact Int.cast_le.mpr (le_max_right _ _)
    have := Int.le_ceil r
    push_cast at hle
    linarith

/-! ### Spans -/

variable [SquareRoot K]

attribute [local instance] Scalar.ofField
attribute [-instance] Scalar.toAdd Scalar.toSub Scalar.toMul Scalar.toDiv Scalar.toNeg Scalar.toLT
  Scalar.toLE Scalar.toBEq

lemma lowestCell_field (lo : K) (n : ℕ) :
    lowestCell lo (Scalar.ofNat n) = (leastIndex lo n : K) := by
  have hread : lowestCell lo (Scalar.ofNat n) =
      Scalar.min ((⌊Scalar.max lo ((0 : ℕ) : K)⌋ : ℤ) : K) (n - ((1 : ℕ) : K)) := rfl
  rw [hread, Scalar.min_field, Scalar.max_field, leastIndex]
  push_cast
  rfl

omit [IsStrictOrderedRing K] in
lemma reach_field (lo hi : K) : reach lo hi = (reachIndex lo hi : K) := by
  have hread : reach lo hi = if lo < hi then ((⌈hi⌉ : ℤ) : K) - ((1 : ℕ) : K)
      else ((⌊Scalar.max lo ((0 : ℕ) : K)⌋ : ℤ) : K) := rfl
  rw [hread, Scalar.max_field, reachIndex]
  split_ifs <;> push_cast <;> rfl

lemma span?_field (lo hi : K) (n : ℕ) : span? lo hi n =
    if n = 0 ∨ hi < 0 ∨ (n : K) < lo then none
    else some ⟨(leastIndex lo n).toNat, (greatestIndex lo hi n).toNat⟩ := by
  have hread : span? lo hi n = if n = 0 ∨ hi < ((0 : ℕ) : K) ∨ (n : K) < lo then none
      else some ⟨⌊lowestCell lo (Scalar.ofNat n)⌋.toNat,
        ⌊Scalar.clamp (reach lo hi) (lowestCell lo (Scalar.ofNat n)) ((n : K) - (1 : ℕ))⌋.toNat⟩ :=
    rfl
  have htop : (n : K) - (1 : ℕ) = ((n - 1 : ℤ) : K) := by push_cast; rfl
  have hleast : (leastIndex lo n : K) ≤ ((n - 1 : ℤ) : K) := Int.cast_le.mpr (min_le_right _ _)
  rw [hread, lowestCell_field, reach_field, htop, Scalar.clamp_field hleast, Nat.cast_zero,
    ← Int.cast_min, ← Int.cast_max, Int.floor_intCast, Int.floor_intCast, greatestIndex]

/-- Indices of a span as whole numbers. -/
lemma span?_eq_some {span : Span} (h : span? lo hi n = some span) :
    (n ≠ 0 ∧ 0 ≤ hi ∧ lo ≤ n) ∧
      (span.first : ℤ) = leastIndex lo n ∧ (span.last : ℤ) = greatestIndex lo hi n := by
  rw [span?_field] at h
  split_ifs at h with hnone
  push Not at hnone
  obtain rfl := Option.some.inj h
  have hleast := leastIndex_nonneg lo hnone.1
  exact ⟨hnone, Int.toNat_of_nonneg hleast,
    Int.toNat_of_nonneg (hleast.trans (le_max_left _ _))⟩

/-- Every number in the interval and on the axis lies in one of the unit intervals of the span. -/
lemma exists_index (hlo : lo ≤ r) (hhi : r ≤ hi) (hzero : 0 ≤ r) (hn : r ≤ n) (hpos : n ≠ 0) :
    ∃ span, span? lo hi n = some span ∧
      ∃ k, span.first ≤ k ∧ k ≤ span.last ∧ (k : K) ≤ r ∧ r ≤ k + 1 := by
  have hmeets : ¬(n = 0 ∨ hi < 0 ∨ (n : K) < lo) := by
    push Not
    exact ⟨hpos, hzero.trans hhi, hlo.trans hn⟩
  obtain ⟨k, hk⟩ : ∃ k : ℕ, (k : ℤ) = max (leastIndex lo n) (⌈r⌉ - 1) :=
    ⟨_, Int.toNat_of_nonneg ((leastIndex_nonneg lo hpos).trans (le_max_left _ _))⟩
  have hceil : ⌈r⌉ - 1 ≤ (n : ℤ) - 1 :=
    Int.sub_le_sub_right (Int.ceil_le.mpr (by rwa [Int.cast_natCast])) 1
  have hleast : leastIndex lo n ≤ k := hk ▸ le_max_left _ _
  have hgreatest : k ≤ greatestIndex lo hi n :=
    hk ▸ max_le_max_left _ (le_min (ceil_sub_one_le_reachIndex hlo hhi hzero) hceil)
  rw [span?_field, if_neg hmeets]
  exact ⟨_, rfl, k, Int.toNat_le.mpr hleast, Int.le_toNat (by omega) |>.mpr hgreatest,
    unit_of_index hk hlo hzero⟩

/-- Every unit interval of the span meets the interval. -/
lemma exists_mem_of_index {span : Span} {k : ℕ} (hspan : span? lo hi n = some span) (hle : lo ≤ hi)
    (hfirst : span.first ≤ k) (hlast : k ≤ span.last) :
    ∃ r, lo ≤ r ∧ r ≤ hi ∧ (k : K) ≤ r ∧ r ≤ k + 1 := by
  obtain ⟨⟨hpos, hhi, hlo⟩, hleast, hgreatest⟩ := span?_eq_some hspan
  have hkhi : (k : K) ≤ hi := by
    have hk : ((k : ℤ) : K) ≤ (greatestIndex lo hi n : K) := Int.cast_le.mpr (by omega)
    rw [Int.cast_natCast, greatestIndex, Int.cast_max, Int.cast_min] at hk
    refine hk.trans (max_le ((leastIndex_le lo n).trans (max_le hle hhi)) ?_)
    exact (min_le_left _ _).trans (reachIndex_le hle hhi)
  have hlok : lo ≤ k + 1 := by
    have hk : (leastIndex lo n : K) ≤ ((k : ℤ) : K) := Int.cast_le.mpr (by omega)
    rw [Int.cast_natCast] at hk
    have := le_leastIndex_add_one hlo
    linarith
  exact ⟨max lo k, le_max_left _ _, max_le hle hkhi, le_max_right _ _,
    max_le hlok (by linarith)⟩

end Footprint

end Sightline
