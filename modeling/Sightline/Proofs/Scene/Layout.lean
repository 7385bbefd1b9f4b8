import Mathlib.Data.Set.Function
import Mathlib.Tactic
import Sightline.Scene.Heightmap

/-!
# The layout of a grid

Elevations are stored row after row, and they are read from a place that is computed from the
coordinates. These are two layouts, and on grids of every shape they are the same one: the places of
the grid points are the places of the samples, each taken once, and a grid sampled from a function
reads that function back.
-/

namespace Sightline

namespace Heightmap

variable {α : Type} {width height x y : ℕ}

/-! ### Places -/

/-- The grid points, by their coordinates. -/
def points (g : Heightmap α) : Set (ℕ × ℕ) := {p | p.1 < g.width ∧ p.2 < g.height}

lemma index_lt (g : Heightmap α) (hx : x < g.width) (hy : y < g.height) :
    g.index x y < g.samples.size := by
  rw [g.size_eq, index]
  calc y * g.width + x < (y + 1) * g.width := by rw [Nat.add_mul]; omega
    _ ≤ g.height * g.width := Nat.mul_le_mul_right _ hy
    _ = g.width * g.height := Nat.mul_comm ..

/-- The grid point whose sample has a place. -/
def pointAt (g : Heightmap α) (place : ℕ) : ℕ × ℕ := (place % g.width, place / g.width)

lemma pointAt_index (g : Heightmap α) (hx : x < g.width) : g.pointAt (g.index x y) = (x, y) := by
  have hpos : 0 < g.width := Nat.zero_lt_of_lt hx
  rw [pointAt, index, Nat.add_comm, Nat.add_mul_mod_self_right, Nat.mod_eq_of_lt hx,
    Nat.add_mul_div_right x y hpos, Nat.div_eq_of_lt hx, Nat.zero_add]

lemma index_pointAt (g : Heightmap α) (place : ℕ) :
    g.index (g.pointAt place).1 (g.pointAt place).2 = place := Nat.div_add_mod' place g.width

lemma pointAt_mem_points (g : Heightmap α) {place : ℕ} (h : place < g.samples.size) :
    g.pointAt place ∈ g.points := by
  rw [g.size_eq] at h
  have hpos : 0 < g.width := Nat.pos_of_mul_pos_right (Nat.zero_lt_of_lt h)
  exact ⟨Nat.mod_lt place hpos, Nat.div_lt_of_lt_mul h⟩

/-- The grid points and the places of the samples belong together one by one. -/
lemma bijOn_index (g : Heightmap α) :
    Set.BijOn (fun p => g.index p.1 p.2) g.points {place | place < g.samples.size} := by
  have hinverse : Set.InvOn g.pointAt (fun p => g.index p.1 p.2) g.points
      {place | place < g.samples.size} := by
    refine ⟨?_, fun place _ => g.index_pointAt place⟩
    rintro ⟨x, y⟩ ⟨hx, -⟩
    exact g.pointAt_index hx
  refine hinverse.bijOn ?_ ?_
  · rintro ⟨x, y⟩ ⟨hx, hy⟩
    exact g.index_lt hx hy
  · intro place h
    exact g.pointAt_mem_points h

/-! ### Rows -/

/-- One more row comes after the others. -/
lemma rows_succ (width height : ℕ) (f : ℕ → ℕ → α) :
    rows width (height + 1) f = rows width height f ++ (List.range width).map (f · height) := by
  rw [rows, List.range_succ, List.flatMap_append, List.flatMap_singleton, ← rows]

/-- The rows of a function have its value at a grid point at the place of that point. -/
lemma getElem?_rows (f : ℕ → ℕ → α) (hx : x < width) (hy : y < height) :
    (rows width height f)[y * width + x]? = some (f x y) := by
  induction height with
  | zero => omega
  | succ n ih =>
    rw [rows_succ]
    rcases Nat.lt_succ_iff_lt_or_eq.mp hy with hlt | rfl
    · have hplace : y * width + x < (rows width n f).length := by
        simpa [ofFn, index] using (ofFn width n f).index_lt hx hlt
      rw [List.getElem?_append_left hplace, ih hlt]
    · rw [List.getElem?_append_right (by rw [length_rows, Nat.mul_comm]; omega), length_rows,
        Nat.mul_comm width y, Nat.add_sub_cancel_left]
      simp [hx]

lemma sample?_ofFn (f : ℕ → ℕ → α) (hx : x < width) (hy : y < height) :
    (ofFn width height f).sample? x y = some (f x y) := by
  rw [sample?, ofFn, List.getElem?_toArray]
  exact getElem?_rows f hx hy

/-! ### Places in words -/

/-- The place of a grid point as words compute it. -/
def wordIndex (g : Heightmap α) (x y : UInt64) : UInt64 := y * UInt64.ofNat g.width + x

/-- Where words can count the samples, they do not overflow on the way to a place. -/
lemma toNat_wordIndex (g : Heightmap α) (hsize : g.width * g.height < UInt64.size) {x y : UInt64}
    (hpoint : (x.toNat, y.toNat) ∈ g.points) :
    (g.wordIndex x y).toNat = g.index x.toNat y.toNat := by
  obtain ⟨hx, hy⟩ := hpoint
  have hplace : g.index x.toNat y.toNat < UInt64.size := by
    rw [← g.size_eq] at hsize
    exact (g.index_lt hx hy).trans hsize
  have hwidth : g.width < UInt64.size :=
    (Nat.le_mul_of_pos_right g.width (Nat.zero_lt_of_lt hy)).trans_lt hsize
  rw [index] at hplace ⊢
  have hrow : y.toNat * g.width < UInt64.size := (Nat.le_add_right _ _).trans_lt hplace
  have hword : (UInt64.ofNat g.width).toNat = g.width := UInt64.toNat_ofNat_of_lt hwidth
  rw [wordIndex, UInt64.toNat_add, UInt64.toNat_mul, hword, Nat.mod_eq_of_lt hrow,
    Nat.mod_eq_of_lt hplace]

/-! ### Grids -/

/-- Every grid point reads a sample of its own, and no sample is left over. -/
structure IsLaidOut [Inhabited α] (g : Heightmap α) : Prop where
  /-- Grid points and places of samples belong together one by one. -/
  bijOn : Set.BijOn (fun p => g.index p.1 p.2) g.points {place | place < g.samples.size}
  /-- The elevation of a grid point is the sample at its place. -/
  reads : ∀ p ∈ g.points, g.samples[g.index p.1 p.2]? = some (g.elevation p.1 p.2)
  /-- Words find that place. -/
  words : ∀ x y : UInt64, (x.toNat, y.toNat) ∈ g.points →
    (g.wordIndex x y).toNat = g.index x.toNat y.toNat

lemma isLaidOut [Inhabited α] (g : Heightmap α) (hsize : g.width * g.height < UInt64.size) :
    g.IsLaidOut where
  bijOn := g.bijOn_index
  reads := by
    rintro ⟨x, y⟩ ⟨hx, hy⟩
    have hread := Array.getElem?_eq_getElem (g.index_lt hx hy)
    rw [elevation, sample?, hread, Option.getD_some]
  words := fun _ _ => g.toNat_wordIndex hsize

lemma ofSamples?_eq_some_iff {samples : Array α} {g : Heightmap α} :
    ofSamples? width height samples = some g ↔
      g.width = width ∧ g.height = height ∧ g.samples = samples := by
  rw [ofSamples?]
  constructor
  · intro h
    split_ifs at h
    obtain rfl := Option.some.inj h
    exact ⟨rfl, rfl, rfl⟩
  · rintro ⟨rfl, rfl, rfl⟩
    rw [dif_pos g.size_eq]

/-- A grid sampled from a function reads that function back; samples make a grid exactly when there
is one for every grid point; and however a grid is made, its elevations and its samples belong
together one by one. -/
theorem grids_areLaidOut [Inhabited α] (width height : ℕ) (hsize : width * height < UInt64.size)
    (f : ℕ → ℕ → α) (level : α) (samples : Array α) :
    (∀ x y, x < width → y < height → (ofFn width height f).elevation x y = f x y) ∧
    ((ofSamples? width height samples).isSome ↔ samples.size = width * height) ∧
    (∀ g, ofSamples? width height samples = some g → g.samples = samples) ∧
    ∀ g, (ofSamples? width height samples = some g ∨ g = flat width height level ∨
        g = ofFn width height f) →
      g.width = width ∧ g.height = height ∧ g.IsLaidOut := by
  refine ⟨fun x y hx hy => ?_, ?_, fun g hg => (ofSamples?_eq_some_iff.mp hg).2.2, fun g hg => ?_⟩
  · rw [elevation, sample?_ofFn f hx hy, Option.getD_some]
  · rw [ofSamples?]
    split_ifs with h
    · exact iff_of_true rfl h
    · exact iff_of_false Bool.false_ne_true h
  · have hshape : g.width = width ∧ g.height = height := by
      rcases hg with hg | rfl | rfl
      · obtain ⟨hwidth, hheight, -⟩ := ofSamples?_eq_some_iff.mp hg
        exact ⟨hwidth, hheight⟩
      · exact ⟨rfl, rfl⟩
      · exact ⟨rfl, rfl⟩
    obtain ⟨rfl, rfl⟩ := hshape
    exact ⟨rfl, rfl, g.isLaidOut hsize⟩

/-- A grid that is wider than it is high: columns count by ones and rows by tens. -/
theorem grids_areLaidOut_oblong :
    let f (x y : ℕ) : ℕ := x + 10 * y
    let g := ofFn 3 2 f
    3 * 2 < UInt64.size ∧ g.samples = #[0, 1, 2, 10, 11, 12] ∧
    (g.elevation 2 0 = 2 ∧ g.elevation 1 1 = 11) ∧ g.IsLaidOut ∧
    (ofSamples? 4 4 (Array.replicate 15 0)).isSome = false := by
  intro f g
  have hsize : 3 * 2 < UInt64.size := by decide
  have hlaid := grids_areLaidOut 3 2 hsize f 0 #[]
  exact ⟨hsize, by decide, ⟨hlaid.1 2 0 (by decide) (by decide), hlaid.1 1 1 (by decide) (by decide)⟩,
    (hlaid.2.2.2 g (.inr (.inr rfl))).2.2, by decide⟩

end Heightmap

end Sightline
