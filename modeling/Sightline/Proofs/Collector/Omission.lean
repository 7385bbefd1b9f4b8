import Mathlib.Data.List.TakeWhile
import Sightline.Proofs.Collector.Selection

/-!
# Why hits are left out

No hit is left out without a reason, and what was kept before a hit gives the reason: a hit of the
same part that is too near, or limits that leave no room. This still holds after the result is cut
to the number of hits asked for, although the hits that filled a limit may then be cut off.
-/

namespace Sightline

/-! ### Lists from which hits are left out -/

/-- `Remains why before kept list` says that `kept` is what remains of `list`, in order, when hits
are left out, each because of `why`. The reason looks at the hits that were kept before the one left
out, the latest first; `before` are those kept before the list. -/
inductive Remains (why : List Hit → Hit → Prop) : List Hit → List Hit → List Hit → Prop where
  | nil {before : List Hit} : Remains why before [] []
  | keep {before kept list : List Hit} {hit : Hit} :
    Remains why (hit :: before) kept list → Remains why before (hit :: kept) (hit :: list)
  | drop {before kept list : List Hit} {hit : Hit} :
    why before hit → Remains why before kept list → Remains why before kept (hit :: list)

namespace Remains

variable {why why' : List Hit → Hit → Prop} {before kept list : List Hit}

lemma mono (hwhy : ∀ before hit, why before hit → why' before hit)
    (h : Remains why before kept list) : Remains why' before kept list := by
  induction h with
  | nil => exact .nil
  | keep _ ih => exact .keep ih
  | drop hreason _ ih => exact .drop (hwhy _ _ hreason) ih

/-- With a reason against every hit, nothing is kept. -/
lemma none (hwhy : ∀ hit, why before hit) (list : List Hit) : Remains why before [] list := by
  induction list with
  | nil => exact .nil
  | cons hit rest ih => exact .drop (hwhy hit) ih

/-- Cutting the list off once `n` hits are kept leaves out hits for one reason more. -/
lemma take (h : Remains why before kept list) (n : ℕ) :
    Remains (fun before hit => n ≤ before.length ∨ why before hit) before
      (kept.take (n - before.length)) list := by
  induction h with
  | nil =>
    rw [List.take_nil]
    exact .nil
  | @keep before kept list hit _ ih =>
    by_cases hfull : n ≤ before.length
    · rw [Nat.sub_eq_zero_of_le hfull, List.take_zero]
      exact none (fun _ => Or.inl hfull) _
    · obtain ⟨room, hroom⟩ : ∃ room, n - before.length = room + 1 :=
        Nat.exists_eq_add_one.mpr (by omega)
      have hleft : n - (hit :: before).length = room := by
        rw [List.length_cons]
        omega
      rw [hroom, List.take_succ_cons]
      exact .keep (hleft ▸ ih)
  | drop hreason _ ih => exact .drop (Or.inr hreason) ih

end Remains

namespace Collector

/-! ### Reasons -/

/-- A hit is nearer than the tolerance to an earlier one of the same part. With the adjacent scope,
all hits kept after that one are of this part as well. -/
def Shadowed (tolerance : Float32) (scope : DedupScope) (before : List Hit) (hit : Hit) : Prop :=
  ∃ later prior earlier, before = later ++ prior :: earlier ∧ prior.part = hit.part ∧
    (prior.distance.toSingle - hit.distance.toSingle).abs < tolerance ∧
    (scope = .adjacent → ∀ between ∈ later, between.part = hit.part)

/-- As many hits were taken before a hit as are asked for or allowed altogether, or as many of its
part or of its group as are allowed. -/
def Exhausted (limits : HitLimits) (requested : ℕ) (taken : List Hit) (hit : Hit) : Prop :=
  min requested limits.maxHits.toNat ≤ taken.length ∨
    limits.perPart.toNat ≤ taken.countP (·.part == hit.part) ∨
    limits.perGroup.toNat ≤ taken.countP (·.group == hit.group)

lemma exists_append_of_mem_takeWhile {p : Hit → Bool} {prior : Hit} {list : List Hit}
    (h : prior ∈ list.takeWhile p) :
    ∃ later earlier, list = later ++ prior :: earlier ∧ ∀ between ∈ later, p between = true := by
  obtain ⟨later, earlier, hsplit⟩ := List.append_of_mem h
  refine ⟨later, earlier ++ list.dropWhile p, ?_, fun between hbetween => ?_⟩
  · rw [← List.cons_append, ← List.append_assoc, ← hsplit, List.takeWhile_append_dropWhile]
  · refine List.mem_takeWhile_imp (l := list) ?_
    rw [hsplit]
    exact List.mem_append_left _ hbetween

lemma Shadowed.of_isDuplicate {tolerance : Float32} {scope : DedupScope} {before : List Hit}
    {hit : Hit} (h : isDuplicate tolerance scope before hit = true) :
    Shadowed tolerance scope before hit := by
  obtain ⟨prior, hprior, hnear⟩ := List.any_eq_true.mp h
  rw [Distance.near, decide_eq_true_iff] at hnear
  cases scope with
  | perPart =>
    obtain ⟨hmem, hpart⟩ := List.mem_filter.mp hprior
    obtain ⟨later, earlier, hsplit⟩ := List.append_of_mem hmem
    exact ⟨later, prior, earlier, hsplit, beq_iff_eq.mp hpart, hnear, fun hscope => by cases hscope⟩
  | adjacent =>
    have hpart := List.mem_takeWhile_imp hprior
    obtain ⟨later, earlier, hsplit, hlater⟩ := exists_append_of_mem_takeWhile hprior
    exact ⟨later, prior, earlier, hsplit, beq_iff_eq.mp hpart, hnear,
      fun _ between hbetween => beq_iff_eq.mp (hlater between hbetween)⟩

lemma Exhausted.of_not_hasRoom {limits : HitLimits} {taken : List Hit} {hit : Hit}
    (requested : ℕ) (h : ¬ HasRoom limits taken hit) : Exhausted limits requested taken hit := by
  simp only [HasRoom, not_and_or, not_lt] at h
  rcases h with hall | hpart | hgroup
  · exact Or.inl ((Nat.min_le_right _ _).trans hall)
  · exact Or.inr (Or.inl hpart)
  · exact Or.inr (Or.inr hgroup)

/-! ### What each step leaves out -/

/-- A scan drops a hit only because it does not keep it. -/
lemma IsScan.remains {keeps : List Hit → Hit → Prop} {scan : List Hit → List Hit → List Hit}
    (h : IsScan keeps scan) (before list : List Hit) :
    Remains (fun before hit => ¬ keeps before hit) before (scan before list) list := by
  induction list generalizing before with
  | nil =>
    rw [h.nil]
    exact .nil
  | cons hit rest ih =>
    by_cases hkeep : keeps before hit
    · rw [h.keep hkeep]
      exact .keep (ih (hit :: before))
    · rw [h.drop hkeep]
      exact .drop hkeep (ih before)

lemma survivors_remains (tolerance : Float32) (scope : DedupScope) (before list : List Hit) :
    Remains (Shadowed tolerance scope) before (survivors tolerance scope before list) list := by
  apply ((isScan_survivors tolerance scope).remains before list).mono
  intro before hit hduplicate
  exact .of_isDuplicate (not_not.mp hduplicate)

lemma capped_remains (limits : HitLimits) (taken list : List Hit) :
    Remains (fun taken hit => ¬ HasRoom limits taken hit) taken (capped limits taken list) list :=
  (isScan_capped limits).remains taken list

lemma finalHits_remains (c : Collector) (requested : ℕ) :
    Remains (Exhausted c.limits requested) [] (c.finalHits requested) c.dedup.hits := by
  have htake :=
    (capped_remains c.limits [] c.dedup.hits).take (min requested c.limits.maxHits.toNat)
  refine htake.mono fun taken hit hreason => ?_
  rcases hreason with hall | hfull
  · exact Or.inl hall
  · exact .of_not_hasRoom requested hfull

/-- Nothing stands before the first hit, so that only a limit of zero can leave it out. -/
lemma head?_finalHits (c : Collector) (requested : ℕ) :
    requested = 0 ∨ c.limits.maxHits = 0 ∨ c.limits.perPart = 0 ∨ c.limits.perGroup = 0 ∨
      (c.finalHits requested).head? = c.sorted.head? := by
  by_cases hzero : c.limits.maxHits = 0 ∨ c.limits.perPart = 0 ∨ c.limits.perGroup = 0
  · tauto
  by_cases hrequested : requested = 0
  · exact Or.inl hrequested
  refine Or.inr (Or.inr (Or.inr (Or.inr ?_)))
  cases hsorted : c.sorted with
  | nil => simp [finalHits, dedup, hsorted, survivors, capped]
  | cons hit rest =>
    have hmax : c.limits.maxHits.toNat ≠ 0 := fun h => hzero (Or.inl (UInt64.toNat_inj.mp h))
    obtain ⟨count, hcount⟩ : ∃ count, min requested c.limits.maxHits.toNat = count + 1 :=
      Nat.exists_eq_add_one.mpr (by omega)
    simp only [finalHits, dedup, hsorted, survivors_nil_cons, capped_cons,
      if_pos (hasRoom_nil_iff.mpr hzero), hcount, List.take_succ_cons, List.head?_cons]

/-- Sorting leaves nothing out. Deduplication leaves out a hit only if a survivor before it is of
the same part and too near, and of the survivors a hit is missing in the result only if the result
has no room for it after the hits before it. Unless nothing may be reported, the first hit in order
is the first one reported. -/
theorem finish_omits (c : Collector) (requested : ℕ) :
    let distinct := c.dedup.hits
    let reported := (c.finish requested).toList
    c.sorted.Perm c.hits ∧
    Remains (Shadowed c.tolerance c.scope) [] distinct c.sorted ∧
    Remains (Exhausted c.limits requested) [] reported distinct ∧
    reported.length ≤ min requested c.limits.maxHits.toNat ∧
    (requested = 0 ∨ c.limits.maxHits = 0 ∨ c.limits.perPart = 0 ∨ c.limits.perGroup = 0 ∨
      reported.head? = c.sorted.head?) := by
  intro distinct reported
  have hreported : reported = c.finalHits requested := Outcome.toList_ofList _
  rw [hreported]
  exact ⟨c.sorted_perm, survivors_remains c.tolerance c.scope [] c.sorted,
    c.finalHits_remains requested, c.finalHits_length_le requested, c.head?_finalHits requested⟩

end Collector

end Sightline
