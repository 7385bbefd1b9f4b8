import Mathlib.Tactic
import Sightline.Proofs.Collector.Report

/-!
# What becomes of every hit

Every hit that arrives is held or was dropped as a near-duplicate, and both are counted. Dropping
near-duplicates settles a collector: what remains is in order, and each hit of it was kept because of
the hits kept before it, which a second pass finds again. So a second pass drops nothing, in either
scope, and a result does not show whether near-duplicates were dropped before.
-/

namespace Sightline

namespace Collector

variable {c : Collector}

/-! ### A second pass -/

/-- A scan of what it left keeps everything: at each hit the same hits were kept before it. -/
lemma IsScan.scan_scan {keeps : List Hit → Hit → Prop} {scan : List Hit → List Hit → List Hit}
    (h : IsScan keeps scan) (kept l : List Hit) : scan kept (scan kept l) = scan kept l := by
  induction l generalizing kept with
  | nil => rw [h.nil, h.nil]
  | cons hit rest ih =>
    by_cases hkeep : keeps kept hit
    · rw [h.keep hkeep, h.keep hkeep, ih]
    · rw [h.drop hkeep, ih]

lemma sorted_dedup (c : Collector) : c.dedup.sorted = c.dedup.hits := by
  have hsorted := List.pairwise_mergeSort Hit.le_trans Hit.le_total c.hits
  exact List.mergeSort_of_pairwise (hsorted.sublist c.dedup_hits_sublist)

lemma dedup_dedup_hits (c : Collector) : c.dedup.dedup.hits = c.dedup.hits := by
  have hagain : c.dedup.dedup.hits =
      survivors c.tolerance c.scope [] c.dedup.sorted := rfl
  rw [hagain, sorted_dedup]
  exact (isScan_survivors c.tolerance c.scope).scan_scan [] c.sorted

/-! ### Counting -/

/-- What is dropped is what the number of hits goes down by. -/
lemma size_dedup_add_dropped (c : Collector) : c.dedup.size + c.dropped = c.size := by
  have hle : c.dedup.hits.length ≤ c.hits.length := c.dedup_hits_subperm.length_le
  simp only [size, dropped]
  omega

lemma duplicates_dedup (c : Collector) : c.dedup.duplicates = c.duplicates + c.dropped := rfl

lemma dropped_dedup (c : Collector) : c.dedup.dropped = 0 := by
  rw [dropped, dedup_dedup_hits, Nat.sub_self]

lemma dedup_dedup (c : Collector) : c.dedup.dedup = c.dedup := by
  have hduplicates : c.dedup.dedup.duplicates = c.dedup.duplicates := by
    rw [duplicates_dedup, dropped_dedup, Nat.add_zero]
  calc c.dedup.dedup
      = { c.dedup with hits := c.dedup.dedup.hits, duplicates := c.dedup.dedup.duplicates } := rfl
    _ = c.dedup := by rw [dedup_dedup_hits, hduplicates]

/-- A call moves hits between those that are held and those that were dropped, and adds those that
arrive with it. -/
lemma afterCall_size_add_duplicates (c : Collector) (call : CollectorCall) :
    (c.afterCall call).size + (c.afterCall call).duplicates =
      c.size + c.duplicates + call.arriving.length := by
  cases call with
  | push hit =>
    simp only [afterCall, push, size, CollectorCall.arriving, List.length_append]
    omega
  | extend hits =>
    simp only [afterCall, extend, size, CollectorCall.arriving, List.length_append]
    omega
  | dedup =>
    have hsize := c.size_dedup_add_dropped
    simp only [afterCall, duplicates_dedup, CollectorCall.arriving, List.length_nil]
    omega

lemma after_size_add_duplicates (c : Collector) (calls : List CollectorCall) :
    (c.after calls).size + (c.after calls).duplicates =
      c.size + c.duplicates + (calls.flatMap CollectorCall.arriving).length := by
  induction calls generalizing c with
  | nil => rfl
  | cons call rest ih =>
    have hcall := c.afterCall_size_add_duplicates call
    have hrest := ih (c.afterCall call)
    have hafter : c.after (call :: rest) = (c.afterCall call).after rest := rfl
    rw [hafter, hrest, hcall, List.flatMap_cons, List.length_append, Nat.add_assoc]

/-! ### Results -/

lemma finish_dedup (c : Collector) (requested : ℕ) :
    c.dedup.finish requested = c.finish requested := by
  have hlimits : c.dedup.limits = c.limits := rfl
  rw [finish, finish, finalHits, finalHits, dedup_dedup_hits, hlimits]

/-- Whatever calls were made on a new collector, every hit that arrived is held or counted as
dropped. Dropping near-duplicates tells by how many hits it makes the collector smaller, and leaves
one that it does not change any more and that comes to the same result. -/
theorem dedup_settles (tolerance : Float32) (scope : DedupScope) (limits : HitLimits)
    (calls : List CollectorCall) (requested : ℕ) :
    let fresh : Collector := { tolerance := tolerance, scope := scope, limits := limits }
    let c := fresh.after calls
    c.size + c.duplicates = (calls.flatMap CollectorCall.arriving).length ∧
    c.dedup.size + c.dropped = c.size ∧
    c.dedup.dropped = 0 ∧ c.dedup.dedup = c.dedup ∧
    c.dedup.finish requested = c.finish requested := by
  intro fresh c
  have hcount : c.size + c.duplicates = 0 + (calls.flatMap CollectorCall.arriving).length :=
    fresh.after_size_add_duplicates calls
  rw [Nat.zero_add] at hcount
  exact ⟨hcount, c.size_dedup_add_dropped, c.dropped_dedup, c.dedup_dedup,
    c.finish_dedup requested⟩

end Collector

end Sightline
