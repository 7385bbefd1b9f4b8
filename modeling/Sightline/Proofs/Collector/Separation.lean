import Mathlib.Tactic
import Sightline.Proofs.Collector.Selection

/-!
# Parts do not interfere

Where a hit is held against all earlier hits of its part, near-duplicates are dropped from each part
as if there were no other hits. Sorting keeps hits that are equal in order as they came, so that a
selection of the sorted hits is the selection sorted, and what was kept of other parts is not
looked at.
-/

namespace Sightline

namespace Collector

/-! ### Selections of sorted hits -/

/-- The hit that came first stands between those below it and all others. -/
lemma mergeSort_cons (first : Hit) (rest : List Hit) :
    (first :: rest).mergeSort Hit.le =
      (rest.mergeSort Hit.le).filter (!first.le ·) ++
        first :: (rest.mergeSort Hit.le).filter (first.le ·) := by
  obtain ⟨below, above, hfirst, hrest, hbelow⟩ :=
    List.mergeSort_cons Hit.le_trans Hit.le_total first rest
  have habove : ∀ hit ∈ above, first.le hit = true := by
    have hsorted := List.pairwise_mergeSort Hit.le_trans Hit.le_total (first :: rest)
    rw [hfirst, List.pairwise_append, List.pairwise_cons] at hsorted
    exact hsorted.2.1.1
  have hkept : (below ++ above).filter (!first.le ·) = below := by
    rw [List.filter_append, List.filter_eq_self.mpr hbelow, List.filter_eq_nil_iff.mpr,
      List.append_nil]
    simpa using habove
  have hleft : (below ++ above).filter (first.le ·) = above := by
    rw [List.filter_append, List.filter_eq_self.mpr habove, List.filter_eq_nil_iff.mpr,
      List.nil_append]
    simpa using hbelow
  rw [hfirst, hrest, hkept, hleft]

/-- A selection of the sorted hits is the selection sorted. -/
lemma filter_mergeSort (p : Hit → Bool) (l : List Hit) :
    (l.mergeSort Hit.le).filter p = (l.filter p).mergeSort Hit.le := by
  induction l with
  | nil => simp
  | cons first rest ih =>
    by_cases hp : p first = true
    · rw [List.filter_cons_of_pos hp, mergeSort_cons, mergeSort_cons, ← ih, List.filter_append,
        List.filter_cons_of_pos hp, List.filter_comm p, List.filter_comm p]
    · -- the first hit is left out on both sides, so it does not matter where it stands
      obtain ⟨below, above, hfirst, hrest, -⟩ :=
        List.mergeSort_cons Hit.le_trans Hit.le_total first rest
      rw [List.filter_cons_of_neg hp, ← ih, hfirst, hrest, List.filter_append, List.filter_append,
        List.filter_cons_of_neg hp]

/-! ### Survivors of one part -/

variable (tolerance : Float32) (part : EntityId)

/-- A hit is only held against hits of its own part. -/
lemma isDuplicate_filter_part {hit : Hit} (hhit : hit.part = part) (kept : List Hit) :
    isDuplicate tolerance .perPart (kept.filter (·.part == part)) hit =
      isDuplicate tolerance .perPart kept hit := by
  simp [isDuplicate, rivals, hhit]

lemma filter_survivors (kept l : List Hit) :
    (survivors tolerance .perPart kept l).filter (·.part == part) =
      survivors tolerance .perPart (kept.filter (·.part == part)) (l.filter (·.part == part)) := by
  induction l generalizing kept with
  | nil => rfl
  | cons hit rest ih =>
    rw [survivors]
    -- a hit of another part changes what was kept, but not what was kept of this one
    by_cases hhit : hit.part = part
    · rw [List.filter_cons, if_pos (beq_iff_eq.mpr hhit), survivors,
        isDuplicate_filter_part tolerance part hhit]
      split
      · exact ih kept
      · simp [hhit, ih (hit :: kept)]
    · rw [List.filter_cons, if_neg (beq_iff_eq.not.mpr hhit)]
      split
      · exact ih kept
      · simp [hhit, ih (hit :: kept)]

/-- The survivors of a part are those of the hits of that part alone, where hits are held against
all earlier hits of their part. -/
theorem dedup_filter_part (c : Collector) (part : EntityId) :
    let deduped (hits : List Hit) :=
      ({ c with scope := .perPart, hits := hits } : Collector).dedup.hits
    (deduped c.hits).filter (·.part == part) = deduped (c.hits.filter (·.part == part)) := by
  intro deduped
  calc (deduped c.hits).filter (·.part == part)
      = survivors c.tolerance .perPart [] ((c.hits.mergeSort Hit.le).filter (·.part == part)) :=
        filter_survivors c.tolerance part [] (c.hits.mergeSort Hit.le)
    _ = survivors c.tolerance .perPart [] ((c.hits.filter (·.part == part)).mergeSort Hit.le) := by
        rw [filter_mergeSort]
    _ = deduped (c.hits.filter (·.part == part)) := rfl

end Collector

end Sightline
