import Mathlib.Data.List.Sort
import Mathlib.Data.Prod.Lex
import Mathlib.Tactic
import Sightline.Query.Collector

/-!
# What sorting, deduplication and the limits leave of a list of hits

A collector sorts its hits, drops near-duplicates, and takes hits from the nearest on as far as the
limits allow. Each step only leaves hits out, so what one step establishes, a later one keeps.
-/

namespace Sightline

/-! ### The order of hits -/

/-- Hits are ordered by distance, then by part, then by group. -/
def Hit.sortKey (h : Hit) : ℤ ×ₗ ℕ ×ₗ ℕ :=
  toLex (h.distance.rank, toLex (h.part.value.toNat, h.group.value.toNat))

lemma Hit.le_iff (a b : Hit) : a.le b = true ↔ a.sortKey ≤ b.sortKey := by
  simp only [Hit.le, Hit.sortKey, Prod.Lex.toLex_le_toLex]
  split_ifs with hd hp
  · simp [hd, hp, UInt64.le_iff_toNat_le]
  · have hne : a.part.value.toNat ≠ b.part.value.toNat := fun h => hp (UInt64.toNat_inj.mp h)
    simp [hd, hne, UInt64.lt_iff_toNat_lt]
  · simp [hd]

/-- The distance comes first in the order of hits. -/
lemma Hit.rank_le_of_sortKey_le {a b : Hit} (h : a.sortKey ≤ b.sortKey) :
    a.distance.rank ≤ b.distance.rank := by
  simp only [Hit.sortKey, Prod.Lex.toLex_le_toLex] at h
  rcases h with h | ⟨h, -⟩
  · exact h.le
  · exact h.le

lemma Hit.le_trans (a b c : Hit) (hab : a.le b = true) (hbc : b.le c = true) :
    a.le c = true := by
  rw [Hit.le_iff] at hab hbc ⊢
  exact hab.trans hbc

lemma Hit.le_total (a b : Hit) : (a.le b || b.le a) = true := by
  rw [Bool.or_eq_true, Hit.le_iff, Hit.le_iff]
  exact LinearOrder.le_total _ _

namespace Collector

lemma sorted_perm (c : Collector) : c.sorted.Perm c.hits := List.mergeSort_perm _ _

lemma pairwise_sorted (c : Collector) :
    c.sorted.Pairwise fun a b => a.sortKey ≤ b.sortKey :=
  (List.pairwise_mergeSort Hit.le_trans Hit.le_total c.hits).imp fun h => (Hit.le_iff _ _).mp h

/-! ### Scans -/

/-- A scan goes through a list of hits and keeps each hit, or drops it, by what it kept before. -/
structure IsScan (keeps : List Hit → Hit → Prop) (scan : List Hit → List Hit → List Hit) :
    Prop where
  nil : ∀ kept, scan kept [] = []
  keep : ∀ {kept hit}, keeps kept hit →
    ∀ rest, scan kept (hit :: rest) = hit :: scan (hit :: kept) rest
  drop : ∀ {kept hit}, ¬ keeps kept hit → ∀ rest, scan kept (hit :: rest) = scan kept rest

lemma IsScan.sublist {keeps : List Hit → Hit → Prop} {scan : List Hit → List Hit → List Hit}
    (h : IsScan keeps scan) (kept l : List Hit) : (scan kept l).Sublist l := by
  induction l generalizing kept with
  | nil => rw [h.nil]
  | cons hit rest ih =>
    by_cases hkeep : keeps kept hit
    · rw [h.keep hkeep]
      exact (ih (hit :: kept)).cons_cons hit
    · rw [h.drop hkeep]
      exact (ih kept).cons hit

/-! ### Near-duplicates -/

/-- Hits of one part are at least the tolerance apart. -/
def Apart (tolerance : Float32) (a b : Hit) : Prop :=
  a.part = b.part → ¬ (a.distance.toSingle - b.distance.toSingle).abs < tolerance

lemma isDuplicate_nil (tolerance : Float32) (scope : DedupScope) (hit : Hit) :
    isDuplicate tolerance scope [] hit = false := by
  cases scope <;> rfl

lemma isDuplicate_perPart_eq_false_iff {tolerance : Float32} {kept : List Hit} {hit : Hit} :
    isDuplicate tolerance .perPart kept hit = false ↔
      ∀ prior ∈ kept, Apart tolerance prior hit := by
  simp [isDuplicate, rivals, Distance.near, Apart]

lemma isScan_survivors (tolerance : Float32) (scope : DedupScope) :
    IsScan (fun kept hit => ¬ isDuplicate tolerance scope kept hit = true)
      (survivors tolerance scope) := by
  constructor
  · intro kept
    rfl
  · intro kept hit hnew rest
    rw [survivors, if_neg hnew]
  · intro kept hit hduplicate rest
    rw [survivors, if_pos (not_not.mp hduplicate)]

lemma survivors_sublist (tolerance : Float32) (scope : DedupScope) (kept l : List Hit) :
    (survivors tolerance scope kept l).Sublist l :=
  (isScan_survivors tolerance scope).sublist kept l

/-- The first hit has nothing to be held against. -/
lemma survivors_nil_cons (tolerance : Float32) (scope : DedupScope) (hit : Hit) (l : List Hit) :
    survivors tolerance scope [] (hit :: l) = hit :: survivors tolerance scope [hit] l := by
  rw [survivors, isDuplicate_nil]
  rfl

/-- Every survivor is apart from the hits kept before the list. -/
lemma survivors_apart_kept {tolerance : Float32} {kept l : List Hit} {hit prior : Hit}
    (hhit : hit ∈ survivors tolerance .perPart kept l) (hprior : prior ∈ kept) :
    Apart tolerance prior hit := by
  induction l generalizing kept with
  | nil => simp [survivors] at hhit
  | cons first rest ih =>
    rw [survivors] at hhit
    split at hhit
    next => exact ih hhit hprior
    next hnew =>
      rcases List.mem_cons.mp hhit with rfl | hrest
      · exact isDuplicate_perPart_eq_false_iff.mp (by simpa using hnew) prior hprior
      · exact ih hrest (List.mem_cons_of_mem first hprior)

lemma survivors_pairwise_apart (tolerance : Float32) (kept l : List Hit) :
    (survivors tolerance .perPart kept l).Pairwise (Apart tolerance) := by
  induction l generalizing kept with
  | nil => exact List.Pairwise.nil
  | cons hit rest ih =>
    rw [survivors]
    split
    · exact ih kept
    · refine List.pairwise_cons.mpr ⟨fun later hlater => ?_, ih (hit :: kept)⟩
      exact survivors_apart_kept hlater List.mem_cons_self

lemma dedup_hits_sublist (c : Collector) : c.dedup.hits.Sublist c.sorted :=
  survivors_sublist c.tolerance c.scope [] c.sorted

lemma dedup_hits_subperm (c : Collector) : c.dedup.hits.Subperm c.hits :=
  c.dedup_hits_sublist.subperm.trans c.sorted_perm.subperm

lemma dedup_hits_eq_nil_iff (c : Collector) : c.dedup.hits = [] ↔ c.hits = [] := by
  constructor
  · intro h
    cases hs : c.sorted with
    | nil => exact List.nil_perm.mp (hs ▸ c.sorted_perm)
    | cons first rest =>
      simp [dedup, hs, survivors_nil_cons] at h
  · intro h
    have hsub := c.dedup_hits_subperm
    rw [h] at hsub
    exact List.subperm_nil.mp hsub

/-! ### Limits -/

/-- The limits leave room for a hit after those that were taken. -/
def HasRoom (limits : HitLimits) (taken : List Hit) (hit : Hit) : Prop :=
  taken.length < limits.maxHits.toNat ∧
    taken.countP (·.part == hit.part) < limits.perPart.toNat ∧
    taken.countP (·.group == hit.group) < limits.perGroup.toNat

instance (limits : HitLimits) (taken : List Hit) (hit : Hit) :
    Decidable (HasRoom limits taken hit) :=
  inferInstanceAs (Decidable (_ ∧ _ ∧ _))

lemma capped_of_full {limits : HitLimits} {taken : List Hit}
    (hfull : limits.maxHits.toNat ≤ taken.length) (l : List Hit) :
    capped limits taken l = [] := by
  cases l with
  | nil => rfl
  | cons hit rest => rw [capped, if_pos hfull]

/-- A hit is taken if there is room for it and passed over otherwise. -/
lemma capped_cons (limits : HitLimits) (taken : List Hit) (hit : Hit) (rest : List Hit) :
    capped limits taken (hit :: rest) =
      if HasRoom limits taken hit then hit :: capped limits (hit :: taken) rest
      else capped limits taken rest := by
  by_cases hroom : HasRoom limits taken hit
  · obtain ⟨hall, hpart, hgroup⟩ := hroom
    rw [if_pos ⟨hall, hpart, hgroup⟩, capped, if_neg hall.not_ge, if_neg hpart.not_ge,
      if_neg hgroup.not_ge]
  · rw [if_neg hroom, capped]
    split_ifs with hfull hpart hgroup
    · exact (capped_of_full hfull rest).symm
    · rfl
    · rfl
    · exact absurd ⟨not_le.mp hfull, not_le.mp hpart, not_le.mp hgroup⟩ hroom

lemma isScan_capped (limits : HitLimits) : IsScan (HasRoom limits) (capped limits) := by
  constructor
  · intro taken
    rfl
  · intro taken hit hroom rest
    rw [capped_cons, if_pos hroom]
  · intro taken hit hfull rest
    rw [capped_cons, if_neg hfull]

lemma capped_sublist (limits : HitLimits) (taken l : List Hit) :
    (capped limits taken l).Sublist l :=
  (isScan_capped limits).sublist taken l

/-- If there is room for a hit with a property only while fewer than `n` hits with it were taken,
then no more than `n` of them are taken in all. -/
lemma countP_capped_le {limits : HitLimits} {p : Hit → Bool} {n : ℕ}
    (hp : ∀ taken hit, HasRoom limits taken hit → p hit = true → taken.countP p < n)
    (taken l : List Hit) (htaken : taken.countP p ≤ n) :
    taken.countP p + (capped limits taken l).countP p ≤ n := by
  induction l generalizing taken with
  | nil => simpa [capped] using htaken
  | cons hit rest ih =>
    rw [capped_cons]
    split
    next hroom =>
      have hnext : (hit :: taken).countP p ≤ n := by
        by_cases hhit : p hit = true
        · have := hp taken hit hroom hhit
          simp only [List.countP_cons, hhit, if_true]
          omega
        · simpa [List.countP_cons, hhit] using htaken
      have := ih (hit :: taken) hnext
      simp only [List.countP_cons] at this ⊢
      omega
    next => exact ih taken htaken

/-- Before anything is taken, only a limit of zero leaves no room. -/
lemma hasRoom_nil_iff {limits : HitLimits} {hit : Hit} :
    HasRoom limits [] hit ↔
      ¬(limits.maxHits = 0 ∨ limits.perPart = 0 ∨ limits.perGroup = 0) := by
  simp [HasRoom, ← UInt64.toNat_inj, Nat.pos_iff_ne_zero]

lemma HasRoom.of_taken {limits : HitLimits} {taken : List Hit} {hit : Hit}
    (h : HasRoom limits taken hit) : HasRoom limits [] hit :=
  ⟨Nat.zero_lt_of_lt h.1, Nat.zero_lt_of_lt h.2.1, Nat.zero_lt_of_lt h.2.2⟩

lemma capped_eq_nil_of_zero {limits : HitLimits}
    (hzero : limits.maxHits = 0 ∨ limits.perPart = 0 ∨ limits.perGroup = 0)
    (taken l : List Hit) : capped limits taken l = [] := by
  induction l with
  | nil => rfl
  | cons hit rest ih =>
    rw [capped_cons, if_neg, ih]
    exact fun hroom => hasRoom_nil_iff.mp hroom.of_taken hzero

lemma capped_nil_eq_nil_iff (limits : HitLimits) (l : List Hit) :
    capped limits [] l = [] ↔
      l = [] ∨ limits.maxHits = 0 ∨ limits.perPart = 0 ∨ limits.perGroup = 0 := by
  cases l with
  | nil => simp [capped]
  | cons hit rest =>
    by_cases hzero : limits.maxHits = 0 ∨ limits.perPart = 0 ∨ limits.perGroup = 0
    · simp only [capped_eq_nil_of_zero hzero, hzero, or_true]
    · rw [capped_cons, if_pos (hasRoom_nil_iff.mpr hzero)]
      simp only [hzero, reduceCtorEq, or_self]

/-! ### The hits of the final result -/

lemma finalHits_sublist_dedup (c : Collector) (requested : ℕ) :
    (c.finalHits requested).Sublist c.dedup.hits :=
  (List.take_sublist _ _).trans (capped_sublist c.limits [] c.dedup.hits)

lemma finalHits_subperm (c : Collector) (requested : ℕ) :
    (c.finalHits requested).Subperm c.hits :=
  (c.finalHits_sublist_dedup requested).subperm.trans c.dedup_hits_subperm

lemma finalHits_pairwise_sortKey (c : Collector) (requested : ℕ) :
    (c.finalHits requested).Pairwise fun a b => a.sortKey ≤ b.sortKey :=
  c.pairwise_sorted.sublist ((c.finalHits_sublist_dedup requested).trans c.dedup_hits_sublist)

lemma finalHits_pairwise_apart (c : Collector) (requested : ℕ) (hscope : c.scope = .perPart) :
    (c.finalHits requested).Pairwise (Apart c.tolerance) := by
  have hdedup : c.dedup.hits.Pairwise (Apart c.tolerance) := by
    simp only [dedup, hscope]
    exact survivors_pairwise_apart c.tolerance [] c.sorted
  exact hdedup.sublist (c.finalHits_sublist_dedup requested)

lemma countP_finalHits_le {c : Collector} {p : Hit → Bool} {n : ℕ}
    (hp : ∀ taken hit, HasRoom c.limits taken hit → p hit = true → taken.countP p < n)
    (requested : ℕ) : (c.finalHits requested).countP p ≤ n := by
  have hcapped := countP_capped_le hp [] c.dedup.hits (Nat.zero_le n)
  have htake := (List.take_sublist (min requested c.limits.maxHits.toNat)
    (capped c.limits [] c.dedup.hits)).countP_le (p := p)
  rw [List.countP_nil] at hcapped
  exact htake.trans (by omega)

lemma finalHits_length_le (c : Collector) (requested : ℕ) :
    (c.finalHits requested).length ≤ min requested c.limits.maxHits.toNat :=
  List.length_take_le _ _

lemma finalHits_eq_nil_iff (c : Collector) (requested : ℕ) :
    c.finalHits requested = [] ↔
      c.hits = [] ∨ requested = 0 ∨
        c.limits.maxHits = 0 ∨ c.limits.perPart = 0 ∨ c.limits.perGroup = 0 := by
  rw [finalHits, List.take_eq_nil_iff, capped_nil_eq_nil_iff, dedup_hits_eq_nil_iff,
    Nat.min_eq_zero_iff]
  have hmax : c.limits.maxHits.toNat = 0 ↔ c.limits.maxHits = 0 := UInt64.toNat_inj (b := 0)
  rw [hmax]
  tauto

end Collector

/-! ### Outcomes -/

lemma Outcome.toList_ofList (l : List Hit) : (Outcome.ofList l).toList = l := by
  cases l <;> rfl

lemma Outcome.ofList_ne_hits_nil (l : List Hit) : Outcome.ofList l ≠ .hits [] := by
  cases l <;> simp [Outcome.ofList]

lemma Outcome.ofList_eq_noHit_iff (l : List Hit) : Outcome.ofList l = .noHit ↔ l = [] := by
  cases l <;> simp [Outcome.ofList]

end Sightline
