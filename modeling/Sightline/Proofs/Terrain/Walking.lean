import Mathlib.Data.List.Chain
import Mathlib.Tactic
import Sightline.Terrain.Footprint

/-!
# The order of a walk

What holds of a walk over any scalar, because it is taken column by column and within a column one
step at a time: every cell comes once, and each follows the one before it in walking order.
-/

namespace Sightline

namespace Span

@[simp] lemma mem_indices {s : Span} {i : ℕ} : i ∈ s.indices ↔ s.first ≤ i ∧ i ≤ s.last := by
  simp only [indices, List.mem_map, List.mem_range]
  constructor
  · rintro ⟨k, hk, rfl⟩
    omega
  · rintro ⟨hfirst, hlast⟩
    exact ⟨i - s.first, by omega, by omega⟩

lemma isChain_indices (s : Span) : s.indices.IsChain fun i j => j = i + 1 := by
  rw [indices, List.isChain_map]
  rcases s.last + 1 - s.first with _ | n
  · exact List.isChain_nil
  · exact (List.isChain_range_succ _ n).mpr fun m _ => by omega

lemma pairwise_indices (s : Span) : s.indices.Pairwise (· < ·) :=
  List.isChain_iff_pairwise.mp (s.isChain_indices.imp fun i j h => by omega)

end Span

namespace Footprint

variable {α : Type} [Scalar α]

lemma span?_eq (lo hi : α) (cells : ℕ) : span? lo hi cells =
    if cells = 0 ∨ hi < 0 ∨ Scalar.ofNat cells < lo then none
    else some ⟨Scalar.toNat (lowestCell lo (Scalar.ofNat cells)),
      Scalar.toNat (Scalar.clamp (reach lo hi) (lowestCell lo (Scalar.ofNat cells))
        (Scalar.ofNat cells - 1))⟩ := rfl

namespace Line

variable {l : Line α}

/-- One place comes right after another in walking order: in a later column, or next to it in the
same one, above it where the line does not fall towards its higher end and below it otherwise. -/
def Follows (l : Line α) (p q : ℕ × ℕ) : Prop :=
  p.1 < q.1 ∨ p.1 = q.1 ∧ if l.low.2 ≤ l.high.2 then q.2 = p.2 + 1 else p.2 = q.2 + 1

/-- One place comes somewhere after another in walking order. -/
def Precedes (l : Line α) (p q : ℕ × ℕ) : Prop :=
  p.1 < q.1 ∨ p.1 = q.1 ∧ if l.low.2 ≤ l.high.2 then p.2 < q.2 else q.2 < p.2

lemma Follows.precedes {p q : ℕ × ℕ} (h : l.Follows p q) : l.Precedes p q := by
  rcases h with h | ⟨h, hstep⟩
  · exact .inl h
  · refine .inr ⟨h, ?_⟩
    split_ifs with hup
    · rw [if_pos hup] at hstep
      omega
    · rw [if_neg hup] at hstep
      omega

lemma Precedes.trans {p q r : ℕ × ℕ} (hpq : l.Precedes p q) (hqr : l.Precedes q r) :
    l.Precedes p r := by
  rw [Precedes] at *
  split_ifs at * <;> omega

lemma Precedes.ne {p q : ℕ × ℕ} (h : l.Precedes p q) : p ≠ q := by
  rintro rfl
  rw [Precedes] at h
  split_ifs at h <;> omega

instance (l : Line α) : IsTrans (ℕ × ℕ) l.Precedes := ⟨fun _ _ _ => Precedes.trans⟩

/-! ### Members -/

/-- The minor indices covered within one column, if there are any. -/
def minorSpan? (l : Line α) (cells column : ℕ) : Option Span :=
  let m0 := l.minorAt (l.crossing column).1
  let m1 := l.minorAt (l.crossing column).2
  span? (Scalar.min m0 m1) (Scalar.max m0 m1) cells

lemma minors_eq (l : Line α) (cells column : ℕ) :
    l.minors cells column = match l.minorSpan? cells column with
      | none => []
      | some span => if l.ascends then span.indices else span.indices.reverse := rfl

lemma walk_eq (l : Line α) (majorCells minorCells : ℕ) :
    l.walk majorCells minorCells = match span? l.low.1 l.high.1 majorCells with
      | none => []
      | some span => span.indices.flatMap fun column =>
          (l.minors minorCells column).map fun minor => (column, minor) := by
  have hspan : spanM (m := Id) Scalar.clamp l.low.1 l.high.1 majorCells =
      pure (span? l.low.1 l.high.1 majorCells) := rfl
  rw [walk, walkM, hspan, pure_bind]
  cases span? l.low.1 l.high.1 majorCells with
  | none => rfl
  | some span => exact congrArg List.flatten List.idRun_mapM

lemma mem_minors {cells column minor : ℕ} : minor ∈ l.minors cells column ↔
    ∃ span, l.minorSpan? cells column = some span ∧ span.first ≤ minor ∧ minor ≤ span.last := by
  rw [minors_eq]
  cases l.minorSpan? cells column with
  | none => simp
  | some span => cases l.ascends <;> simp

lemma mem_walk {majorCells minorCells : ℕ} {p : ℕ × ℕ} : p ∈ l.walk majorCells minorCells ↔
    ∃ span, span? l.low.1 l.high.1 majorCells = some span ∧ span.first ≤ p.1 ∧ p.1 ≤ span.last ∧
      p.2 ∈ l.minors minorCells p.1 := by
  obtain ⟨major, minor⟩ := p
  rw [walk_eq]
  cases span? l.low.1 l.high.1 majorCells with
  | none => simp
  | some span => simp [and_assoc]

/-! ### Order -/

lemma isChain_minors (l : Line α) (cells column : ℕ) : (l.minors cells column).IsChain
    fun i j => if l.low.2 ≤ l.high.2 then j = i + 1 else i = j + 1 := by
  rw [minors_eq]
  cases l.minorSpan? cells column with
  | none => exact List.isChain_nil
  | some span =>
    have hindices := span.isChain_indices
    by_cases hup : l.low.2 ≤ l.high.2
    · simpa [ascends, hup] using hindices
    · simpa [ascends, hup, List.isChain_reverse, flip] using hindices

/-- A walk over columns is in order when every column is and the columns are. -/
lemma isChain_flatMap {R : ℕ × ℕ → ℕ × ℕ → Prop} {column : ℕ → List (ℕ × ℕ)} {columns : List ℕ}
    (hcolumns : columns.Pairwise (· < ·)) (hwithin : ∀ c, (column c).IsChain R)
    (hacross : ∀ c d, c < d → ∀ p ∈ column c, ∀ q ∈ column d, R p q) :
    (columns.flatMap column).IsChain R := by
  induction hcolumns with
  | nil => exact List.isChain_nil
  | @cons c rest hlt _ ih =>
    rw [List.flatMap_cons, List.isChain_append]
    refine ⟨hwithin c, ih, fun p hp q hq => ?_⟩
    obtain ⟨d, hd, hqd⟩ := List.mem_flatMap.mp (List.mem_of_mem_head? hq)
    exact hacross c d (hlt d hd) p (List.mem_of_mem_getLast? hp) q hqd

/-- Each place of a walk follows the one before it. -/
lemma isChain_walk (l : Line α) (majorCells minorCells : ℕ) :
    (l.walk majorCells minorCells).IsChain l.Follows := by
  rw [walk_eq]
  cases span? l.low.1 l.high.1 majorCells with
  | none => exact List.isChain_nil
  | some span =>
    refine isChain_flatMap span.pairwise_indices (fun column => ?_) fun c d hcd p hp q hq => ?_
    · rw [List.isChain_map]
      exact (l.isChain_minors minorCells column).imp fun i j h => .inr ⟨rfl, h⟩
    · obtain ⟨_, _, rfl⟩ := List.mem_map.mp hp
      obtain ⟨_, _, rfl⟩ := List.mem_map.mp hq
      exact .inl hcd

/-- No place comes twice. -/
lemma nodup_walk (l : Line α) (majorCells minorCells : ℕ) :
    (l.walk majorCells minorCells).Nodup :=
  (List.isChain_iff_pairwise.mp ((l.isChain_walk majorCells minorCells).imp
    fun _ _ => Follows.precedes)).imp Precedes.ne

end Line

/-! ### Cells -/

/-- Major and minor coordinate of a point. -/
def coordinates (segment : Segment α) (p : Vec3 α) : α × α :=
  if isXMajor segment then (p.x, p.y) else (p.y, p.x)

lemma line_eq (segment : Segment α) : line segment =
    lineBetween (coordinates segment segment.start) (coordinates segment segment.stop) := by
  rw [line, coordinates, coordinates]
  split <;> rfl

/-- Major and minor index of a cell; of these the cell, in turn. -/
def exchange (segment : Segment α) (p : ℕ × ℕ) : ℕ × ℕ := if isXMajor segment then p else p.swap

@[simp] lemma exchange_exchange (segment : Segment α) (p : ℕ × ℕ) :
    exchange segment (exchange segment p) = p := by
  rw [exchange, exchange]
  split <;> rfl

lemma exchange_injective (segment : Segment α) : Function.Injective (exchange segment) :=
  Function.LeftInverse.injective (exchange_exchange segment)

lemma exchange_ne_zero (segment : Segment α) {cellsX cellsY : ℕ} (hx : cellsX ≠ 0)
    (hy : cellsY ≠ 0) :
    (exchange segment (cellsX, cellsY)).1 ≠ 0 ∧ (exchange segment (cellsX, cellsY)).2 ≠ 0 := by
  rw [exchange]
  split
  · exact ⟨hx, hy⟩
  · exact ⟨hy, hx⟩

lemma cells_eq (cellsX cellsY : ℕ) (segment : Segment α) : cells cellsX cellsY segment =
    if isXMajor segment then (line segment).walk cellsX cellsY
    else ((line segment).walk cellsY cellsX).map Prod.swap := by
  rw [cells, cellsM]
  split <;> rfl

lemma cells_eq_map (cellsX cellsY : ℕ) (segment : Segment α) :
    cells cellsX cellsY segment =
      ((line segment).walk (exchange segment (cellsX, cellsY)).1
        (exchange segment (cellsX, cellsY)).2).map (exchange segment) := by
  rw [cells_eq]
  cases h : isXMajor segment with
  | true =>
    have hsame : exchange segment = id := by
      funext p
      simp [exchange, h]
    simp [hsame]
  | false =>
    have hswap : exchange segment = Prod.swap := by
      funext p
      simp [exchange, h]
    simp [hswap]

lemma map_exchange_cells (cellsX cellsY : ℕ) (segment : Segment α) :
    (cells cellsX cellsY segment).map (exchange segment) =
      (line segment).walk (exchange segment (cellsX, cellsY)).1
        (exchange segment (cellsX, cellsY)).2 := by
  rw [cells_eq_map, List.map_map]
  exact List.map_id'' (exchange_exchange segment) _

lemma nodup_cells (cellsX cellsY : ℕ) (segment : Segment α) : (cells cellsX cellsY segment).Nodup := by
  rw [cells_eq_map]
  exact (Line.nodup_walk _ _ _).map (exchange_injective segment)

lemma mem_cells {cellsX cellsY : ℕ} {segment : Segment α} {cell : Cell} :
    cell ∈ cells cellsX cellsY segment ↔ exchange segment cell ∈
      (line segment).walk (exchange segment (cellsX, cellsY)).1
        (exchange segment (cellsX, cellsY)).2 := by
  rw [← map_exchange_cells, List.mem_map_of_injective (exchange_injective segment)]

end Footprint

end Sightline
