import Mathlib.Tactic
import Sightline.Proofs.Collector.Arrival
import Sightline.Proofs.Single.Order
import Sightline.Proofs.Single.Patterns

/-!
# One scope against the other

A hit that only remains where it is held against the run before it can be the reason that a later one
does not, so neither scope leaves a subset of what the other leaves. But place by place the hits of a
part that remain under the narrower scope are no farther: a hit that is near one of them is also near
the one in its place, which lies between. So where the narrower scope drops a hit that the other
keeps, it already has one more.
-/

namespace Sightline

/-! ### The order of distances -/

namespace Distance

open Single

variable {tolerance : Float32} {d e f : Distance}

/-- The number of units at a place in the order of distances. -/
def unitsAt (place : ℤ) : ℤ :=
  if 0 ≤ place then patternUnits place.toNat else -patternUnits (-place - 1).toNat

lemma unitsAt_mono : Monotone unitsAt := by
  intro place place' h
  rw [unitsAt, unitsAt]
  split_ifs with hnonneg hnonneg' hnonneg'
  · exact Int.ofNat_le.mpr (patternUnits_mono (Int.toNat_le_toNat h))
  · omega
  · omega
  · exact neg_le_neg (Int.ofNat_le.mpr (patternUnits_mono (by omega)))

/-- Numbers have the places from one infinity to the other. -/
lemma isNumber_toSingle_iff :
    IsNumber d.toSingle ↔ -(infinityPattern : ℤ) - 1 ≤ d.rank ∧ d.rank ≤ infinityPattern := by
  have hrange : d.bits.toNat < 2 ^ 32 := d.bits.toNat_lt
  rw [toSingle, isNumber_ofBits, rank_eq, infinityPattern]
  split_ifs <;> omega

lemma units_toSingle (h : IsNumber d.toSingle) : units d.toSingle = unitsAt d.rank := by
  have hrange : d.bits.toNat < 2 ^ 32 := d.bits.toNat_lt
  rw [toSingle, units_ofBits h, rank_eq]
  split_ifs with hpositive hrank hrank
  · rw [unitsAt, if_pos (Int.natCast_nonneg _), Int.toNat_natCast]
  · omega
  · omega
  · have hpattern : (-(0x7fffffff - (d.bits.toNat : ℤ)) - 1).toNat = d.bits.toNat - 2 ^ 31 := by
      omega
    rw [unitsAt, if_neg (by omega), hpattern]

/-- Between two numbers there are numbers only, and in their order. -/
lemma toSingle_le_of_between (hde : d.rank ≤ e.rank) (hef : e.rank ≤ f.rank)
    (hd : IsNumber d.toSingle) (hf : IsNumber f.toSingle) :
    d.toSingle ≤ e.toSingle ∧ e.toSingle ≤ f.toSingle := by
  have he : IsNumber e.toSingle := by
    rw [isNumber_toSingle_iff] at hd hf ⊢
    omega
  refine ⟨le_of_units hd he ?_, le_of_units he hf ?_⟩
  · rw [units_toSingle hd, units_toSingle he]
    exact unitsAt_mono hde
  · rw [units_toSingle he, units_toSingle hf]
    exact unitsAt_mono hef

/-- Distances that lie between near ones are near. -/
lemma near_of_between (hde : d.rank ≤ e.rank) (hef : e.rank ≤ f.rank)
    (h : near tolerance d f = true) : near tolerance e f = true := by
  rw [near, decide_eq_true_iff] at h ⊢
  have hnumber : IsNumber (d.toSingle - f.toSingle) := isNumber_abs.mp (lt_iff.mp h).1.1
  obtain ⟨hde, hef⟩ := toSingle_le_of_between hde hef hnumber.of_sub.1 hnumber.of_sub.2
  exact abs_sub_lt_of_between hde hef h

end Distance

/-! ### Lists of hits place by place -/

/-- Of two lists of hits the first has at least as many, and none is farther than the one in its
place in the second. -/
structure Ahead (hits hits' : List Hit) : Prop where
  /-- There are at least as many. -/
  length_le : hits'.length ≤ hits.length
  /-- None comes after the one in its place in the order of distances. -/
  rank_le : ∀ i (h : i < hits.length) (h' : i < hits'.length),
    hits[i].distance.rank ≤ hits'[i].distance.rank

namespace Ahead

variable {hits hits' : List Hit}

lemma append_left (h : Ahead hits hits') (hit : Hit) : Ahead (hits ++ [hit]) hits' := by
  refine ⟨h.length_le.trans (by simp), fun i hi hi' => ?_⟩
  have hi : i < hits.length := hi'.trans_le h.length_le
  rw [List.getElem_append_left hi]
  exact h.rank_le i hi hi'

lemma append_right {hit : Hit} (h : Ahead hits hits') (hlonger : hits'.length < hits.length)
    (hle : ∀ prior ∈ hits, prior.distance.rank ≤ hit.distance.rank) :
    Ahead hits (hits' ++ [hit]) := by
  refine ⟨by simpa using hlonger, fun i hi hi' => ?_⟩
  rcases lt_or_ge i hits'.length with hold | hnew
  · rw [List.getElem_append_left hold]
    exact h.rank_le i hi hold
  · rw [List.getElem_append_right hnew, List.getElem_singleton]
    exact hle _ (List.getElem_mem hi)

lemma append {hit : Hit} (h : Ahead hits hits')
    (hle : ∀ prior ∈ hits, prior.distance.rank ≤ hit.distance.rank) :
    Ahead (hits ++ [hit]) (hits' ++ [hit]) := by
  refine (h.append_left hit).append_right ?_ ?_
  · rw [List.length_append]
    exact Nat.lt_succ_of_le h.length_le
  · intro prior hprior
    rcases List.mem_append.mp hprior with hold | hnew
    · exact hle prior hold
    · rw [List.mem_singleton.mp hnew]

/-- If a hit is near one of the first list and none of the second, the first list is longer. -/
lemma length_lt {tolerance : Float32} {hit : Hit} (h : Ahead hits hits')
    (hle : ∀ prior ∈ hits', prior.distance.rank ≤ hit.distance.rank)
    (hnear : ∃ prior ∈ hits, Distance.near tolerance prior.distance hit.distance = true)
    (hfar : ¬ ∃ prior ∈ hits', Distance.near tolerance prior.distance hit.distance = true) :
    hits'.length < hits.length := by
  by_contra hlength
  obtain ⟨prior, hprior, hnear⟩ := hnear
  obtain ⟨i, hi, rfl⟩ := List.getElem_of_mem hprior
  have hi' : i < hits'.length := by omega
  have hmem : hits'[i] ∈ hits' := List.getElem_mem hi'
  exact hfar ⟨_, hmem, Distance.near_of_between (h.rank_le i hi hi') (hle _ hmem) hnear⟩

end Ahead

namespace Collector

/-! ### Scanning under both scopes -/

variable {tolerance : Float32} {scope : DedupScope} {part : EntityId}
variable {kept kept' rest : List Hit} {hit : Hit}

/-- What is kept after a hit, the latest first. -/
def keptAfter (tolerance : Float32) (scope : DedupScope) (kept : List Hit) (hit : Hit) : List Hit :=
  if isDuplicate tolerance scope kept hit then kept else hit :: kept

lemma reverse_append_survivors (kept l : List Hit) :
    kept.reverse ++ survivors tolerance scope kept l =
      (l.foldl (keptAfter tolerance scope) kept).reverse := by
  induction l generalizing kept with
  | nil => exact List.append_nil _
  | cons hit rest ih =>
    rw [survivors, List.foldl_cons, ← ih, keptAfter]
    split_ifs
    · rfl
    · rw [List.reverse_cons, List.append_assoc, List.singleton_append]

/-- The hits of a part among those kept, the nearest first. -/
def ofPart (part : EntityId) (kept : List Hit) : List Hit :=
  (kept.filter (·.part == part)).reverse

lemma filter_survivors_eq (l : List Hit) :
    (survivors tolerance scope [] l).filter (·.part == part) =
      ofPart part (l.foldl (keptAfter tolerance scope) []) := by
  rw [ofPart, ← List.filter_reverse, ← reverse_append_survivors, List.reverse_nil, List.nil_append]

lemma ofPart_keptAfter_of_ne (hpart : hit.part ≠ part) :
    ofPart part (keptAfter tolerance scope kept hit) = ofPart part kept := by
  rw [keptAfter]
  split_ifs
  · rfl
  · rw [ofPart, List.filter_cons_of_neg (by simpa using hpart), ofPart]

lemma ofPart_keptAfter :
    ofPart hit.part (keptAfter tolerance scope kept hit) =
      if isDuplicate tolerance scope kept hit then ofPart hit.part kept
      else ofPart hit.part kept ++ [hit] := by
  rw [keptAfter]
  split_ifs
  · rfl
  · rw [ofPart, List.filter_cons_of_pos (by simp), List.reverse_cons, ofPart]

lemma isDuplicate_perPart_iff :
    isDuplicate tolerance .perPart kept hit = true ↔
      ∃ prior ∈ ofPart hit.part kept, Distance.near tolerance prior.distance hit.distance = true := by
  simp [isDuplicate, rivals, ofPart, and_assoc]

/-- The run before a hit only has hits of its part. -/
lemma isDuplicate_of_adjacent (h : isDuplicate tolerance .adjacent kept hit = true) :
    isDuplicate tolerance .perPart kept hit = true := by
  obtain ⟨prior, hprior, hnear⟩ := List.any_eq_true.mp h
  have hpart := List.mem_takeWhile_imp hprior
  have hkept : prior ∈ kept := (List.takeWhile_sublist _).subset hprior
  exact List.any_eq_true.mpr ⟨prior, List.mem_filter.mpr ⟨hkept, hpart⟩, hnear⟩

/-- What is kept and what is still to come are in order. -/
def InOrder (kept rest : List Hit) : Prop :=
  (kept.reverse ++ rest).Pairwise fun a b => a.distance.rank ≤ b.distance.rank

lemma InOrder.step (h : InOrder kept (hit :: rest)) :
    InOrder (keptAfter tolerance scope kept hit) rest := by
  refine h.sublist ?_
  rw [keptAfter]
  split_ifs
  · exact (List.sublist_cons_self hit rest).append_left _
  · rw [List.reverse_cons, List.append_assoc, List.singleton_append]

lemma InOrder.le (h : InOrder kept (hit :: rest)) :
    ∀ prior ∈ ofPart part kept, prior.distance.rank ≤ hit.distance.rank := by
  intro prior hprior
  have hkept : prior ∈ kept := (List.mem_filter.mp (List.mem_reverse.mp hprior)).1
  exact (List.pairwise_append.mp h).2.2 prior (List.mem_reverse.mpr hkept) hit List.mem_cons_self

/-- Whatever the next hit is, the narrower scope stays ahead. -/
lemma ahead_step (h : InOrder kept (hit :: rest)) (h' : InOrder kept' (hit :: rest))
    (hahead : Ahead (ofPart part kept) (ofPart part kept')) :
    Ahead (ofPart part (keptAfter tolerance .adjacent kept hit))
      (ofPart part (keptAfter tolerance .perPart kept' hit)) := by
  by_cases hpart : hit.part = part
  · subst hpart
    rw [ofPart_keptAfter, ofPart_keptAfter]
    split_ifs with hdropped hdropped' hdropped'
    · exact hahead
    · rw [isDuplicate_perPart_iff] at hdropped'
      have hnear := isDuplicate_perPart_iff.mp (isDuplicate_of_adjacent hdropped)
      exact hahead.append_right (hahead.length_lt h'.le hnear hdropped') h.le
    · exact hahead.append_left hit
    · exact hahead.append h.le
  · rwa [ofPart_keptAfter_of_ne hpart, ofPart_keptAfter_of_ne hpart]

lemma ahead_run {l : List Hit} (h : InOrder kept l) (h' : InOrder kept' l)
    (hahead : Ahead (ofPart part kept) (ofPart part kept')) :
    Ahead (ofPart part (l.foldl (keptAfter tolerance .adjacent) kept))
      (ofPart part (l.foldl (keptAfter tolerance .perPart) kept')) := by
  induction l generalizing kept kept' with
  | nil => exact hahead
  | cons hit rest ih => exact ih h.step h'.step (ahead_step h h' hahead)

/-- Of every part at least as many hits remain where they are held against the run before them only,
and place by place they are no farther. -/
theorem dedup_ahead (c : Collector) (part : EntityId) :
    let remaining (scope : DedupScope) :=
      ({ c with scope := scope } : Collector).dedup.hits.filter (·.part == part)
    Ahead (remaining .adjacent) (remaining .perPart) := by
  intro remaining
  have hremaining (scope : DedupScope) :
      remaining scope = ofPart part (c.sorted.foldl (keptAfter c.tolerance scope) []) :=
    filter_survivors_eq c.sorted
  have hsorted : InOrder [] c.sorted := c.pairwise_sorted.imp Hit.rank_le_of_sortKey_le
  rw [hremaining, hremaining]
  exact ahead_run hsorted hsorted ⟨le_rfl, by simp [ofPart]⟩

/-- A hit of another part lets the third hit remain, which then is near the fourth. Infinities are
not near each other. -/
example :
    let hit (part : UInt64) (bits : UInt32) : Hit :=
      ⟨⟨part⟩, ⟨part⟩, 0, Vec3.zero, Vec3.zero, ⟨bits⟩⟩
    let hits := [hit 1 0x40a00000, hit 2 0x40a00347, hit 1 0x40a0068e, hit 1 0x40a00d1b,
      hit 1 0x7f800000, hit 1 0x7f800000]
    let remaining (scope : DedupScope) :=
      ((survivors 0.001 scope [] hits).filter (·.part == ⟨1⟩)).map (·.distance.bits)
    remaining .adjacent = [0x40a00000, 0x40a0068e, 0x7f800000, 0x7f800000] ∧
    remaining .perPart = [0x40a00000, 0x40a00d1b, 0x7f800000, 0x7f800000] := by
  decide +kernel

end Collector

end Sightline
