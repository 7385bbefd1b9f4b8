import Mathlib.Tactic
import Sightline.Proofs.Scene.Layout
import Sightline.Proofs.Single.Exact
import Sightline.Proofs.Terrain.Walking
import Sightline.Terrain.Survey

/-!
# Safety of the walk

Two operations of a survey are partial: holding a value between bounds asks for bounds that are in
order, and reading an elevation asks for a sample of the grid. Here each of them reports a fault where
it may not be used. On grids of up to `2 ^ 24` samples along each axis neither ever does, whatever
becomes of the coordinates on the way: the number of cells is a single, and so is the last index, so
that the bounds are numbers and in order even when the coordinate between them is infinite or undefined.

A walk whose operations all succeed is the plain walk, in any monad.
-/

namespace Sightline

/-- What stops a walk. -/
inductive Fault where
  /-- A value was to be held between bounds that are out of order. -/
  | bounds
  /-- A sample outside the grid was to be read. -/
  | sample (x y : ℕ)
deriving DecidableEq, Repr

/-! ### Operations that are checked -/

/-- `Scalar.clamp`, refusing bounds that are out of order or undefined. -/
def Scalar.clampChecked {α : Type} [Scalar α] (a lo hi : α) : Except Fault α :=
  if lo ≤ hi then .ok (Scalar.clamp a lo hi) else .error .bounds

namespace Heightmap

variable {α : Type} {g : Heightmap α} {x y : ℕ}

/-- The elevation at a point of the grid. -/
def elevationChecked (g : Heightmap α) (x y : ℕ) : Except Fault α :=
  if h : x < g.width ∧ y < g.height then
    have := g.index_lt h.1 h.2
    .ok g.samples[g.index x y]
  else .error (.sample x y)

lemma elevationChecked_eq [Inhabited α] (hx : x < g.width) (hy : y < g.height) :
    g.elevationChecked x y = .ok (g.elevation x y) := by
  rw [elevationChecked, dif_pos ⟨hx, hy⟩, elevation, sample?,
    Array.getElem?_eq_getElem (g.index_lt hx hy), Option.getD_some]

end Heightmap

/-- `GroundStrip.under` with its operations checked. -/
def GroundStrip.underChecked (ground : Heightmap Float32) (segment : Segment Float32) :
    Except Fault GroundStrip :=
  underM Scalar.clampChecked ground.elevationChecked ground.cellsX ground.cellsY segment

/-! ### Operations that succeed -/

section Succeeds

variable {m : Type → Type} [Monad m] [LawfulMonad m]

lemma mapM_eq_pure {β γ : Type} {f : β → m γ} {g : β → γ} {xs : List β}
    (h : ∀ x ∈ xs, f x = pure (g x)) : xs.mapM f = pure (xs.map g) := by
  induction xs with
  | nil => rfl
  | cons x xs ih =>
    rw [List.mapM_cons, h x List.mem_cons_self, ih fun y hy => h y (List.mem_cons_of_mem x hy),
      pure_bind, pure_bind, List.map_cons]

namespace Footprint

variable {α : Type} [Scalar α] {clamp : α → α → α → m α} {n majorCells minorCells : ℕ}

/-- On an axis with `n` cells, `clamp` succeeds with the bounds of every span. -/
def Clamps (clamp : α → α → α → m α) (n : ℕ) : Prop :=
  ∀ a lo : α, n ≠ 0 → clamp a (lowestCell lo (Scalar.ofNat n)) (Scalar.ofNat n - 1) =
    pure (Scalar.clamp a (lowestCell lo (Scalar.ofNat n)) (Scalar.ofNat n - 1))

lemma spanM_eq (h : Clamps clamp n) (lo hi : α) : spanM clamp lo hi n = pure (span? lo hi n) := by
  simp only [spanM, span?_eq]
  split_ifs with hnone
  · rfl
  · rw [h _ _ fun hzero => hnone (.inl hzero), pure_bind]

lemma Line.minorsM_eq (h : Clamps clamp n) (l : Line α) (column : ℕ) :
    l.minorsM clamp n column = pure (l.minors n column) := by
  rw [minorsM, minors_eq, minorSpan?, spanM_eq h, pure_bind]
  cases span? (Scalar.min (l.minorAt (l.crossing column).1) (l.minorAt (l.crossing column).2))
    (Scalar.max (l.minorAt (l.crossing column).1) (l.minorAt (l.crossing column).2)) n <;> rfl

lemma Line.walkM_eq (hmajor : Clamps clamp majorCells) (hminor : Clamps clamp minorCells)
    (l : Line α) : l.walkM clamp majorCells minorCells = pure (l.walk majorCells minorCells) := by
  rw [walkM, walk_eq, spanM_eq hmajor, pure_bind]
  cases span? l.low.1 l.high.1 majorCells with
  | none => rfl
  | some span =>
    simp only [minorsM_eq hminor, pure_bind, List.mapM_pure, List.flatMap_def]

lemma cellsM_eq {cellsX cellsY : ℕ} (hx : Clamps clamp cellsX) (hy : Clamps clamp cellsY)
    (segment : Segment α) :
    cellsM clamp cellsX cellsY segment = pure (cells cellsX cellsY segment) := by
  rw [cellsM, cells_eq, Line.walkM_eq hx hy, Line.walkM_eq hy hx, pure_bind]
  split <;> rfl

end Footprint

namespace GroundStrip

variable {elevation : ℕ → ℕ → m Float32} {clamp : Float32 → Float32 → Float32 → m Float32}
  {ground : Heightmap Float32}

lemma le_of_mem_gridPoints {cell : Cell} {p : ℕ × ℕ} (hp : p ∈ gridPoints cell) :
    p.1 ≤ cell.1 + 1 ∧ p.2 ≤ cell.2 + 1 := by
  simp only [gridPoints, List.mem_cons, List.not_mem_nil, or_false] at hp
  rcases hp with rfl | rfl | rfl | rfl <;> simp

lemma cellCorners_eq (ground : Heightmap Float32) (cell : Cell) : cellCorners ground cell =
    (gridPoints cell).map fun p =>
      ⟨Single.ofNat p.1, Single.ofNat p.2, ground.elevation p.1 p.2⟩ := rfl

lemma cellCornersM_eq {cell : Cell} (h : ∀ p ∈ gridPoints cell,
    elevation p.1 p.2 = pure (ground.elevation p.1 p.2)) :
    cellCornersM elevation cell = pure (cellCorners ground cell) := by
  rw [cellCornersM, cellCorners_eq]
  refine mapM_eq_pure fun (x, y) hp => ?_
  have helevation : elevation x y = pure (ground.elevation x y) := h (x, y) hp
  simp only [helevation, pure_bind]

lemma under_eq (ground : Heightmap Float32) (segment : Segment Float32) :
    let cells := Footprint.cells ground.cellsX ground.cellsY segment
    under ground segment = ofCorners cells (cells.map (cellCorners ground)) :=
  congrArg (ofCorners (Footprint.cells ground.cellsX ground.cellsY segment)) List.idRun_mapM

/-- Where values can be held between bounds and the cells lie in the grid, nothing fails. -/
lemma underM_eq {segment : Segment Float32} (hx : Footprint.Clamps clamp ground.cellsX)
    (hy : Footprint.Clamps clamp ground.cellsY)
    (hpoints : ∀ cell ∈ Footprint.cells ground.cellsX ground.cellsY segment,
      ∀ p ∈ gridPoints cell, elevation p.1 p.2 = pure (ground.elevation p.1 p.2)) :
    underM clamp elevation ground.cellsX ground.cellsY segment = pure (under ground segment) := by
  have hcorners : (Footprint.cells ground.cellsX ground.cellsY segment).mapM
      (cellCornersM elevation) = pure ((Footprint.cells ground.cellsX ground.cellsY segment).map
        (cellCorners ground)) :=
    mapM_eq_pure fun cell hcell => cellCornersM_eq (hpoints cell hcell)
  rw [underM, Footprint.cellsM_eq hx hy, pure_bind, hcorners, pure_bind, under_eq]

lemma triangles_under (ground : Heightmap Float32) (segment : Segment Float32) :
    (under ground segment).triangles =
      (under ground segment).cells.flatMap (cellTriangles ground) := by
  rw [under_eq]
  exact List.flatMap_map ..

end GroundStrip

end Succeeds

/-! ### Singles -/

namespace Single

variable {x lo hi : Float32}

lemma min_le_right (hhi : IsNumber hi) : Scalar.min x hi ≤ hi := by
  rw [Scalar.min]
  split_ifs with hle hdefined
  · exact hle
  · exact le_iff.mpr ⟨⟨hhi, hhi⟩, le_rfl⟩
  · exact absurd (isDefined_iff.mpr hhi) hdefined

/-- What is no number is left as it is, and counts as nothing. -/
lemma units_clamp_le (hbounds : lo ≤ hi) (hhi : 0 ≤ units hi) :
    units (Scalar.clamp x lo hi) ≤ units hi := by
  obtain ⟨⟨_, hhiNumber⟩, hle⟩ := le_iff.mp hbounds
  rw [Scalar.clamp]
  split_ifs with hlow hhigh
  · exact hle
  · exact le_rfl
  · by_cases hx : IsNumber x
    · exact not_lt.mp fun hlt => hhigh (lt_iff.mpr ⟨⟨hhiNumber, hx⟩, hlt⟩)
    · rw [IsNumber, not_not] at hx
      rwa [units, hx]

end Single

namespace Footprint

variable {n majorCells minorCells : ℕ}

lemma lowestCell_le (hn : n < 2 ^ 24) (hpos : n ≠ 0) (lo : Float32) :
    lowestCell lo (Scalar.ofNat n) ≤ (Scalar.ofNat n - 1 : Float32) :=
  Single.min_le_right (Single.ofNat_sub_one hn.le (Nat.pos_of_ne_zero hpos)).1

lemma clamps_checked (hn : n < 2 ^ 24) : Clamps (Scalar.clampChecked (α := Float32)) n :=
  fun _ lo hpos => if_pos (lowestCell_le hn hpos lo)

/-- No index reaches past the last cell. -/
lemma last_lt_of_span? {lo hi : Float32} {span : Span} (hn : n < 2 ^ 24)
    (hspan : span? lo hi n = some span) : span.last < n := by
  rw [span?_eq] at hspan
  split_ifs at hspan with hnone
  have hpos : n ≠ 0 := fun hzero => hnone (.inl hzero)
  obtain ⟨_, hunits⟩ := Single.ofNat_sub_one hn.le (Nat.pos_of_ne_zero hpos)
  obtain rfl := Option.some.inj hspan
  have hnonneg : 0 ≤ Single.units (Single.ofNat n - 1) := by
    rw [hunits]
    positivity
  have hclamp : Single.units (Scalar.clamp (reach lo hi) (lowestCell lo (Scalar.ofNat n))
      (Scalar.ofNat n - 1)) ≤ Single.units (Single.ofNat n - 1) :=
    Single.units_clamp_le (lowestCell_le hn hpos lo) hnonneg
  have hwhole : Single.toNat (Single.ofNat n - 1) = n - 1 :=
    Single.toNat_of_units hunits (by rw [UInt64.size]; omega)
  have hle := Single.toNat_le_toNat hclamp
  rw [hwhole] at hle
  exact Nat.lt_of_le_pred (Nat.pos_of_ne_zero hpos) hle

lemma Line.lt_of_mem_walk {l : Line Float32} (hmajor : majorCells < 2 ^ 24)
    (hminor : minorCells < 2 ^ 24) {p : ℕ × ℕ} (hp : p ∈ l.walk majorCells minorCells) :
    p.1 < majorCells ∧ p.2 < minorCells := by
  obtain ⟨columns, hcolumns, _, hlast, hmem⟩ := mem_walk.mp hp
  obtain ⟨minors, hminors, _, hlast'⟩ := mem_minors.mp hmem
  exact ⟨hlast.trans_lt (last_lt_of_span? hmajor hcolumns),
    hlast'.trans_lt (last_lt_of_span? hminor hminors)⟩

lemma lt_of_mem_cells {cellsX cellsY : ℕ} {segment : Segment Float32} (hx : cellsX < 2 ^ 24)
    (hy : cellsY < 2 ^ 24) {cell : Cell} (hcell : cell ∈ cells cellsX cellsY segment) :
    cell.1 < cellsX ∧ cell.2 < cellsY := by
  have hwalk := mem_cells.mp hcell
  cases h : isXMajor segment with
  | true =>
    simp only [exchange, h] at hwalk
    exact Line.lt_of_mem_walk hx hy hwalk
  | false =>
    simp only [exchange, h] at hwalk
    exact (Line.lt_of_mem_walk hy hx hwalk).symm

/-- The line of a segment with finite ends joins these, the lower one along the major axis first. -/
lemma line_ends {segment : Segment Float32} (hfinite : segment.isFinite = true) :
    (line segment = ⟨coordinates segment segment.start, coordinates segment segment.stop⟩ ∨
      line segment = ⟨coordinates segment segment.stop, coordinates segment segment.start⟩) ∧
    (line segment).low.1 ≤ (line segment).high.1 := by
  simp only [Segment.isFinite, Vec3.isFinite, Vec3.all, Bool.and_eq_true] at hfinite
  obtain ⟨⟨⟨hpx, hpy⟩, -⟩, ⟨hqx, hqy⟩, -⟩ := hfinite
  have hnumber : Single.IsNumber (coordinates segment segment.start).1 ∧
      Single.IsNumber (coordinates segment segment.stop).1 := by
    rw [coordinates, coordinates]
    split
    · exact ⟨Single.isNumber_of_isFinite hpx, Single.isNumber_of_isFinite hqx⟩
    · exact ⟨Single.isNumber_of_isFinite hpy, Single.isNumber_of_isFinite hqy⟩
  rw [line_eq, lineBetween]
  split_ifs with hle
  · exact ⟨.inl rfl, hle⟩
  · rw [Single.le_iff, and_iff_right hnumber, not_le] at hle
    exact ⟨.inr rfl, Single.le_iff.mpr ⟨hnumber.symm, hle.le⟩⟩

end Footprint

/-! ### The safety of a survey -/

namespace GroundStrip

/-- A strip that is found without fault, cell by cell in walking order. -/
structure IsSafe (ground : Heightmap Float32) (segment : Segment Float32)
    (strip : GroundStrip) : Prop where
  /-- All bounds are in order and all samples lie in the grid. -/
  checked : underChecked ground segment = .ok strip
  /-- All four corners of a cell lie in the grid. -/
  inside : ∀ cell ∈ strip.cells, cell.1 + 1 < ground.width ∧ cell.2 + 1 < ground.height
  /-- No cell comes twice. -/
  nodup : strip.cells.Nodup
  /-- The line walked joins the ends of the segment, the lower one along the major axis first. -/
  ends : let l := Footprint.line segment
    let p := Footprint.coordinates segment segment.start
    let q := Footprint.coordinates segment segment.stop
    (l = ⟨p, q⟩ ∨ l = ⟨q, p⟩) ∧ l.low.1 ≤ l.high.1
  /-- By major and minor index, each cell follows the one before it on that line. -/
  follows : (strip.cells.map (Footprint.exchange segment)).IsChain (Footprint.line segment).Follows
  /-- The triangles are those of the cells, in the same order. -/
  triangles_eq : strip.triangles = strip.cells.flatMap (cellTriangles ground)
  /-- Every cell has two of them. -/
  two_triangles : ∀ cell ∈ strip.cells, (cellTriangles ground cell).length = 2

/-- Surveying a grid of up to `2 ^ 24` samples along each axis is safe under every finite segment,
wherever it lies. -/
theorem under_isSafe (ground : Heightmap Float32) (segment : Segment Float32)
    (hwidth : ground.width ≤ 2 ^ 24) (hheight : ground.height ≤ 2 ^ 24)
    (hfinite : segment.isFinite = true) : IsSafe ground segment (under ground segment) := by
  have hx : ground.cellsX < 2 ^ 24 := by
    rw [Heightmap.cellsX]
    omega
  have hy : ground.cellsY < 2 ^ 24 := by
    rw [Heightmap.cellsY]
    omega
  have hinside : ∀ cell ∈ (under ground segment).cells,
      cell.1 + 1 < ground.width ∧ cell.2 + 1 < ground.height := by
    intro cell hcell
    obtain ⟨hcellX, hcellY⟩ := Footprint.lt_of_mem_cells hx hy hcell
    rw [Heightmap.cellsX] at hcellX
    rw [Heightmap.cellsY] at hcellY
    omega
  exact {
    checked := underM_eq (Footprint.clamps_checked hx) (Footprint.clamps_checked hy)
      fun cell hcell p hp => by
        obtain ⟨hcellX, hcellY⟩ := hinside cell hcell
        obtain ⟨hpX, hpY⟩ := le_of_mem_gridPoints hp
        exact Heightmap.elevationChecked_eq (by omega) (by omega)
    inside := hinside
    nodup := Footprint.nodup_cells ..
    ends := Footprint.line_ends hfinite
    follows := by
      have hwalk := Footprint.map_exchange_cells ground.cellsX ground.cellsY segment
      rw [under_eq, ofCorners, hwalk]
      exact Footprint.Line.isChain_walk ..
    triangles_eq := triangles_under ..
    two_triangles := fun cell _ => rfl }

/-- A ray that comes from far outside the grid and descends across it. -/
theorem under_isSafe_descending :
    let ground : Heightmap Float32 := Heightmap.flat 3 4 0
    let segment : Segment Float32 := ⟨⟨-1, 5, 2⟩, ⟨2, -1, 1⟩⟩
    (ground.width ≤ 2 ^ 24 ∧ ground.height ≤ 2 ^ 24 ∧ segment.isFinite = true) ∧
    IsSafe ground segment (under ground segment) ∧
    (under ground segment).cells = [(1, 0), (0, 1), (0, 2)] := by
  intro ground segment
  have hfinite : segment.isFinite = true := by decide +kernel
  exact ⟨⟨by decide, by decide, hfinite⟩,
    under_isSafe ground segment (by decide) (by decide) hfinite, by decide +kernel⟩

end GroundStrip

end Sightline
