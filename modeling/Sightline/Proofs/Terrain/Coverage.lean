import Mathlib.Tactic
import Sightline.Proofs.Terrain.Spans
import Sightline.Proofs.Terrain.Walking

/-!
# Coverage of a walk

Over an ordered field, where nothing rounds, the cells of a walk are those under the segment: no
point of the footprint inside the grid is missed, and every cell is met by the footprint. Along each
axis this is what a span says about an interval; a column of cells cuts an interval of the minor axis
out of the line, because the minor coordinate changes evenly along it.
-/

namespace Sightline

namespace Footprint

variable {K : Type} [Field K] [LinearOrder K] [FloorRing K] [SquareRoot K]

attribute [local instance] Scalar.ofField
attribute [-instance] Scalar.toAdd Scalar.toSub Scalar.toMul Scalar.toDiv Scalar.toNeg Scalar.toLT
  Scalar.toLE Scalar.toBEq

/-! ### Reading the walk -/

namespace Line

variable {l : Line K} {column : ℕ} {a : K}

lemma minorAt_field (l : Line K) (a : K) : l.minorAt a =
    if l.low.1 < l.high.1 then
      l.low.2 + (l.high.2 - l.low.2) * (a - l.low.1) / (l.high.1 - l.low.1)
    else l.low.2 := rfl

lemma crossing_field (l : Line K) (column : ℕ) : l.crossing column =
    (max l.low.1 column, max (min l.high.1 (column + 1)) (max l.low.1 column)) := by
  have hread : l.crossing column = (Scalar.max l.low.1 (column : K),
    Scalar.max (Scalar.min l.high.1 ((column + 1 : ℕ) : K)) (Scalar.max l.low.1 (column : K))) := rfl
  rw [hread, Scalar.max_field, Scalar.max_field, Scalar.min_field, Nat.cast_succ]

lemma minorSpan?_field (l : Line K) (n column : ℕ) : l.minorSpan? n column =
    span? (min (l.minorAt (l.crossing column).1) (l.minorAt (l.crossing column).2))
      (max (l.minorAt (l.crossing column).1) (l.minorAt (l.crossing column).2)) n := by
  rw [minorSpan?, Scalar.min_field, Scalar.max_field]

/-- How far the minor coordinate moves with the major one. -/
def slope (l : Line K) : K :=
  if l.low.1 < l.high.1 then (l.high.2 - l.low.2) / (l.high.1 - l.low.1) else 0

lemma minorAt_eq_slope (l : Line K) (a : K) :
    l.minorAt a = l.low.2 + l.slope * (a - l.low.1) := by
  rw [minorAt_field, slope]
  split_ifs <;> ring

/-- In a column that the line meets, it is crossed between the border of the column and the end of
the line. -/
lemma mem_crossing (hmeets : ∃ r, (l.low.1 ≤ r ∧ r ≤ l.high.1) ∧ (column : K) ≤ r ∧ r ≤ column + 1) :
    a ∈ Set.uIcc (l.crossing column).1 (l.crossing column).2 ↔
      (l.low.1 ≤ a ∧ a ≤ l.high.1) ∧ (column : K) ≤ a ∧ a ≤ column + 1 := by
  obtain ⟨r, ⟨hlow, hhigh⟩, hleft, hright⟩ := hmeets
  have horder : max l.low.1 (column : K) ≤ min l.high.1 (column + 1) :=
    (max_le hlow hleft).trans (le_min hhigh hright)
  rw [crossing_field, max_eq_left horder, Set.uIcc_of_le horder, Set.mem_Icc, max_le_iff, le_min_iff]
  tauto

/-- The point of a line at a parameter, from its lower end at `0` to its higher end at `1`. -/
def along (l : Line K) (t : K) : K × K :=
  (l.low.1 + (l.high.1 - l.low.1) * t, l.low.2 + (l.high.2 - l.low.2) * t)

/-- The place lies under the point of the line at a major coordinate. -/
def IsUnder (l : Line K) (a : K) (p : ℕ × ℕ) : Prop :=
  ((p.1 : K) ≤ a ∧ a ≤ p.1 + 1) ∧ (p.2 : K) ≤ l.minorAt a ∧ l.minorAt a ≤ p.2 + 1

end Line

lemma lineBetween_field (p q : K × K) :
    lineBetween p q = if p.1 ≤ q.1 then ⟨p, q⟩ else ⟨q, p⟩ := rfl

lemma isXMajor_field (segment : Segment K) : isXMajor segment =
    decide (|segment.stop.y - segment.start.y| ≤ |segment.stop.x - segment.start.x|) := rfl

/-- The points of a segment are those of its line, taken in the same or in the opposite direction. -/
lemma coordinates_pointAt (segment : Segment K) :
    (∀ t, coordinates segment (segment.pointAt t) = (line segment).along t) ∨
      ∀ t, coordinates segment (segment.pointAt t) = (line segment).along (1 - t) := by
  have hpoint (t : K) : coordinates segment (segment.pointAt t) =
      Line.along ⟨coordinates segment segment.start, coordinates segment segment.stop⟩ t := by
    rw [coordinates, coordinates, coordinates]
    split <;> rfl
  rw [line_eq, lineBetween_field]
  split_ifs with hle
  · exact .inl hpoint
  · refine .inr fun t => (hpoint t).trans ?_
    simp only [Line.along]
    congr 1 <;> ring

/-- The point lies over the closed unit square of a cell. -/
def IsOver (p : Vec3 K) (cell : Cell) : Prop :=
  ((cell.1 : K) ≤ p.x ∧ p.x ≤ cell.1 + 1) ∧ (cell.2 : K) ≤ p.y ∧ p.y ≤ cell.2 + 1

lemma isOver_iff (segment : Segment K) {p : Vec3 K} {cell : Cell}
    (hp : (line segment).minorAt (coordinates segment p).1 = (coordinates segment p).2) :
    IsOver p cell ↔ (line segment).IsUnder (coordinates segment p).1 (exchange segment cell) := by
  rw [Line.IsUnder, hp, IsOver, coordinates, exchange]
  split
  · rfl
  · exact and_comm

lemma coordinates_on_grid (segment : Segment K) {p : Vec3 K} {cellsX cellsY : ℕ}
    (hx : 0 ≤ p.x ∧ p.x ≤ cellsX) (hy : 0 ≤ p.y ∧ p.y ≤ cellsY) :
    let c := coordinates segment p
    let size := exchange segment (cellsX, cellsY)
    (0 ≤ c.1 ∧ c.1 ≤ size.1) ∧ 0 ≤ c.2 ∧ c.2 ≤ size.2 := by
  simp only [coordinates, exchange]
  split
  · exact ⟨hx, hy⟩
  · exact ⟨hy, hx⟩

/-! ### The cells of a line -/

variable [IsStrictOrderedRing K]

namespace Line

variable {l : Line K} {majorCells minorCells : ℕ} {a : K}

/-- The minor coordinate moves evenly, so that an interval of the major axis goes to the interval
between its ends. -/
lemma image_minorAt (l : Line K) (a b : K) :
    l.minorAt '' Set.uIcc a b = Set.uIcc (l.minorAt a) (l.minorAt b) := by
  have hfun : l.minorAt = (l.low.2 + ·) ∘ (l.slope * ·) ∘ (· - l.low.1) :=
    funext l.minorAt_eq_slope
  rw [hfun, Set.image_comp, Set.image_comp, Set.image_sub_const_uIcc, Set.image_const_mul_uIcc,
    Set.image_const_add_uIcc]
  rfl

/-- No point of the line on the grid is missed. -/
lemma exists_mem_walk (hmajor : majorCells ≠ 0) (hminor : minorCells ≠ 0)
    (hline : l.low.1 ≤ a ∧ a ≤ l.high.1) (ha : 0 ≤ a ∧ a ≤ majorCells)
    (hb : 0 ≤ l.minorAt a ∧ l.minorAt a ≤ minorCells) :
    ∃ p ∈ l.walk majorCells minorCells, l.IsUnder a p := by
  obtain ⟨columns, hcolumns, column, hfirst, hlast, hcolumn⟩ :=
    exists_index hline.1 hline.2 ha.1 ha.2 hmajor
  have hcross : a ∈ Set.uIcc (l.crossing column).1 (l.crossing column).2 :=
    (mem_crossing ⟨a, hline, hcolumn⟩).mpr ⟨hline, hcolumn⟩
  have hbetween : l.minorAt a ∈
      Set.uIcc (l.minorAt (l.crossing column).1) (l.minorAt (l.crossing column).2) :=
    l.image_minorAt _ _ ▸ Set.mem_image_of_mem _ hcross
  obtain ⟨minors, hminors, minor, hfirst', hlast', hminor⟩ :=
    exists_index hbetween.1 hbetween.2 hb.1 hb.2 hminor
  refine ⟨(column, minor), ?_, hcolumn, hminor⟩
  exact mem_walk.mpr ⟨columns, hcolumns, hfirst, hlast,
    mem_minors.mpr ⟨minors, (l.minorSpan?_field _ _).trans hminors, hfirst', hlast'⟩⟩

/-- Every place of a walk is met by the line. -/
lemma exists_isUnder (horder : l.low.1 ≤ l.high.1) {p : ℕ × ℕ}
    (hp : p ∈ l.walk majorCells minorCells) :
    ∃ a, (l.low.1 ≤ a ∧ a ≤ l.high.1) ∧ l.IsUnder a p := by
  obtain ⟨columns, hcolumns, hfirst, hlast, hmem⟩ := mem_walk.mp hp
  obtain ⟨minors, hminors, hfirst', hlast'⟩ := mem_minors.mp hmem
  obtain ⟨r, hlow, hhigh, hcolumn⟩ := exists_mem_of_index hcolumns horder hfirst hlast
  rw [minorSpan?_field] at hminors
  obtain ⟨b, hmin, hmax, hminor⟩ := exists_mem_of_index hminors min_le_max hfirst' hlast'
  have himage : b ∈ l.minorAt '' Set.uIcc (l.crossing p.1).1 (l.crossing p.1).2 := by
    rw [image_minorAt]
    exact ⟨hmin, hmax⟩
  obtain ⟨a, hcross, rfl⟩ := himage
  obtain ⟨hline, ha⟩ := (mem_crossing ⟨r, ⟨hlow, hhigh⟩, hcolumn⟩).mp hcross
  exact ⟨a, hline, ha, hminor⟩

/-! ### The line of a segment -/

/-- The lower end comes first, and a line that does not move along the major axis is a point. -/
structure IsGraph (l : Line K) : Prop where
  /-- The ends are in order. -/
  low_le_high : l.low.1 ≤ l.high.1
  /-- A line of no length along the major axis has none along the other. -/
  point : l.low.1 = l.high.1 → l.low.2 = l.high.2

lemma IsGraph.minorAt_along (hl : l.IsGraph) (t : K) : l.minorAt (l.along t).1 = (l.along t).2 := by
  rw [minorAt_field, along]
  split_ifs with hlt
  · have hne : l.high.1 - l.low.1 ≠ 0 := (sub_pos.mpr hlt).ne'
    field_simp
    ring
  · have heq := le_antisymm hl.low_le_high (not_lt.mp hlt)
    rw [hl.point heq, sub_self, zero_mul, add_zero]

omit [FloorRing K] [SquareRoot K] in
lemma IsGraph.along_mem (hl : l.IsGraph) {t : K} (ht : 0 ≤ t ∧ t ≤ 1) :
    l.low.1 ≤ (l.along t).1 ∧ (l.along t).1 ≤ l.high.1 := by
  have hlength : 0 ≤ l.high.1 - l.low.1 := sub_nonneg.mpr hl.low_le_high
  have hstart := mul_nonneg hlength ht.1
  have hstop := mul_le_of_le_one_right hlength ht.2
  rw [along]
  constructor <;> linarith

omit [SquareRoot K] in
/-- Every major coordinate between the ends is taken. -/
lemma IsGraph.exists_along (hl : l.IsGraph) {a : K} (ha : l.low.1 ≤ a ∧ a ≤ l.high.1) :
    ∃ t, (0 ≤ t ∧ t ≤ 1) ∧ (l.along t).1 = a := by
  rcases hl.low_le_high.eq_or_lt with heq | hlt
  · refine ⟨0, ⟨le_rfl, zero_le_one⟩, ?_⟩
    rw [along, mul_zero, add_zero]
    exact le_antisymm ha.1 (ha.2.trans heq.ge)
  · have hlength : 0 < l.high.1 - l.low.1 := sub_pos.mpr hlt
    refine ⟨(a - l.low.1) / (l.high.1 - l.low.1), ⟨?_, ?_⟩, ?_⟩
    · exact div_nonneg (sub_nonneg.mpr ha.1) hlength.le
    · rw [div_le_one hlength]
      exact sub_le_sub_right ha.2 _
    · rw [along, mul_div_cancel₀ _ hlength.ne', add_sub_cancel]

end Line

/-- The axis is chosen so that the line of a segment is a graph over it. -/
lemma isGraph_line (segment : Segment K) : (line segment).IsGraph := by
  -- Without movement along the major axis there is none along the other.
  have hpoint : (coordinates segment segment.start).1 = (coordinates segment segment.stop).1 →
      (coordinates segment segment.start).2 = (coordinates segment segment.stop).2 := by
    intro heq
    by_cases h : |segment.stop.y - segment.start.y| ≤ |segment.stop.x - segment.start.x|
    · simp only [coordinates, isXMajor_field, decide_eq_true_eq, if_pos h] at heq ⊢
      rw [heq, sub_self, abs_zero] at h
      exact (sub_eq_zero.mp (abs_nonpos_iff.mp h)).symm
    · simp only [coordinates, isXMajor_field, decide_eq_true_eq, if_neg h] at heq
      rw [heq, sub_self, abs_zero] at h
      exact absurd (abs_nonneg _) h
  rw [line_eq, lineBetween_field]
  split_ifs with hle
  · exact ⟨hle, hpoint⟩
  · exact ⟨(not_le.mp hle).le, fun heq => (hpoint heq.symm).symm⟩

/-- Every point of a segment is the point of its line at the same major coordinate. -/
lemma coordinates_pointAt_mem (segment : Segment K) {t : K} (ht : 0 ≤ t ∧ t ≤ 1) :
    let l := line segment
    let c := coordinates segment (segment.pointAt t)
    (l.low.1 ≤ c.1 ∧ c.1 ≤ l.high.1) ∧ l.minorAt c.1 = c.2 := by
  have hline := isGraph_line segment
  rcases coordinates_pointAt segment with h | h
  · rw [h]
    exact ⟨hline.along_mem ht, hline.minorAt_along t⟩
  · rw [h]
    exact ⟨hline.along_mem ⟨sub_nonneg.mpr ht.2, sub_le_self 1 ht.1⟩, hline.minorAt_along _⟩

/-- Every point of the line of a segment is one of the segment. -/
lemma exists_pointAt (segment : Segment K) {a : K}
    (ha : (line segment).low.1 ≤ a ∧ a ≤ (line segment).high.1) :
    ∃ t, (0 ≤ t ∧ t ≤ 1) ∧
      coordinates segment (segment.pointAt t) = (a, (line segment).minorAt a) := by
  have hline := isGraph_line segment
  obtain ⟨t, ht, rfl⟩ := hline.exists_along ha
  rw [hline.minorAt_along t]
  rcases coordinates_pointAt segment with h | h
  · exact ⟨t, ht, h t⟩
  · refine ⟨1 - t, ⟨sub_nonneg.mpr ht.2, sub_le_self 1 ht.1⟩, ?_⟩
    rw [h, sub_sub_cancel]

/-! ### The cells of a segment -/

/-- The cells of a walk are those under a segment: no point of the segment over the grid is missed,
and every cell has one over it. -/
structure IsCover {β : Type} (ground : Heightmap β) (segment : Segment K) (cells : List Cell) :
    Prop where
  /-- On a grid that has cells, every point over it is over one of these. -/
  covers : 1 < ground.width → 1 < ground.height → ∀ t : K, 0 ≤ t → t ≤ 1 →
    let p := segment.pointAt t
    (0 ≤ p.x ∧ p.x ≤ ground.width - 1) → (0 ≤ p.y ∧ p.y ≤ ground.height - 1) →
      ∃ cell ∈ cells, IsOver p cell
  /-- Over every cell there is a point. -/
  meets : ∀ cell ∈ cells, ∃ t : K, 0 ≤ t ∧ t ≤ 1 ∧ IsOver (segment.pointAt t) cell

/-- The walk misses nothing and goes nowhere else, on every grid and along every segment. -/
theorem cells_isCover {β : Type} (ground : Heightmap β) (segment : Segment K) :
    IsCover ground segment (cells ground.cellsX ground.cellsY segment) where
  covers := by
    intro hwidth hheight t ht₀ ht₁ p hx hy
    have hcellsX : (ground.cellsX : K) = ground.width - 1 := Nat.cast_pred (by omega)
    have hcellsY : (ground.cellsY : K) = ground.height - 1 := Nat.cast_pred (by omega)
    obtain ⟨hmajor, hminor⟩ := exchange_ne_zero segment
      (Nat.sub_ne_zero_of_lt hwidth) (Nat.sub_ne_zero_of_lt hheight)
    obtain ⟨ha, hb⟩ := coordinates_on_grid segment (hcellsX ▸ hx) (hcellsY ▸ hy)
    obtain ⟨hline, hgraph⟩ := coordinates_pointAt_mem segment ⟨ht₀, ht₁⟩
    obtain ⟨place, hplace, hunder⟩ :=
      Line.exists_mem_walk hmajor hminor hline ha (hgraph.symm ▸ hb)
    refine ⟨exchange segment place, mem_cells.mpr ?_, (isOver_iff segment hgraph).mpr ?_⟩
    · rwa [exchange_exchange]
    · rwa [exchange_exchange]
  meets := by
    intro cell hcell
    obtain ⟨a, ha, hunder⟩ :=
      Line.exists_isUnder (isGraph_line segment).low_le_high (mem_cells.mp hcell)
    obtain ⟨t, ht, hpoint⟩ := exists_pointAt segment ha
    refine ⟨t, ht.1, ht.2, (isOver_iff segment ?_).mpr ?_⟩
    · rw [hpoint]
    · rwa [hpoint]

/-- A segment of rationals that comes from outside the grid and descends across it. -/
theorem cells_isCover_descending :
    let ground : Heightmap ℚ := Heightmap.flat 3 4 0
    let segment : Segment ℚ := ⟨⟨-1, 5, 2⟩, ⟨2, -1, 1⟩⟩
    IsStrictOrderedRing ℚ ∧ IsCover ground segment [(1, 0), (0, 1), (0, 2)] := by
  intro ground segment
  have hcells : cells ground.cellsX ground.cellsY segment = [(1, 0), (0, 1), (0, 2)] := by
    decide +kernel
  exact ⟨inferInstance, hcells ▸ cells_isCover ground segment⟩

end Footprint

end Sightline
