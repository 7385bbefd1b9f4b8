import Mathlib.Tactic
import Sightline.Proofs.Collector.Report

/-!
# The order in which hits arrive

A collector looks at three things in a hit: its distance, its part, and its group. They decide the
place of a hit among the others, whether it is a near-duplicate, and whether the limits leave room
for it. So hits that arrive in another order are reported alike in these three, and the order can
only show where different hits agree in all of them.
-/

namespace Sightline

/-! ### Labels -/

/-- What a collector looks at in a hit. -/
def Hit.label (h : Hit) : UInt32 × EntityId × EntityId := (h.distance.bits, h.part, h.group)

lemma Distance.rank_eq (d : Distance) : d.rank =
    if (d.bits.toNat : ℤ) < 0x80000000 then (d.bits.toNat : ℤ) else 0x7fffffff - d.bits.toNat :=
  rfl

/-- The total order of distances tells all bit patterns apart. -/
lemma Distance.rank_injective : Function.Injective Distance.rank := by
  intro d e h
  have hbits : (d.bits.toNat : ℤ) = e.bits.toNat := by
    rw [rank_eq, rank_eq] at h
    split_ifs at h <;> omega
  rw [Distance.mk.injEq, ← UInt32.toNat_inj]
  exact_mod_cast hbits

lemma Hit.label_eq_iff {a b : Hit} :
    a.label = b.label ↔ a.distance = b.distance ∧ a.part = b.part ∧ a.group = b.group := by
  simp only [label, Prod.mk.injEq]
  rw [← Distance.mk.injEq]

/-- The order of hits tells labels apart, and nothing else. -/
lemma Hit.sortKey_eq_iff {a b : Hit} : a.sortKey = b.sortKey ↔ a.label = b.label := by
  have hpart : a.part.value.toNat = b.part.value.toNat ↔ a.part = b.part := by
    rw [UInt64.toNat_inj, ← EntityId.mk.injEq]
  have hgroup : a.group.value.toNat = b.group.value.toNat ↔ a.group = b.group := by
    rw [UInt64.toNat_inj, ← EntityId.mk.injEq]
  simp [Hit.sortKey, Hit.label_eq_iff, Distance.rank_injective.eq_iff, hpart, hgroup]

namespace Collector

variable {c : Collector} {kept kept' l l' : List Hit} {hit hit' : Hit}

/-! ### What the steps look at -/

/-- If labels decide which hits a scan keeps, the labels of a list decide those of the result. -/
lemma IsScan.label_congr {keeps : List Hit → Hit → Prop} {scan : List Hit → List Hit → List Hit}
    (hscan : IsScan keeps scan)
    (hkeeps : ∀ kept kept' hit hit', kept.map Hit.label = kept'.map Hit.label →
      hit.label = hit'.label → (keeps kept hit ↔ keeps kept' hit'))
    (hkept : kept.map Hit.label = kept'.map Hit.label) (h : l.map Hit.label = l'.map Hit.label) :
    (scan kept l).map Hit.label = (scan kept' l').map Hit.label := by
  induction l generalizing kept kept' l' with
  | nil =>
    obtain rfl : l' = [] := List.map_eq_nil_iff.mp h.symm
    rw [hscan.nil, hscan.nil]
  | cons hit rest ih =>
    obtain ⟨hit', rest', rfl, hhit, hrest⟩ := List.map_eq_cons_iff.mp h.symm
    have hsame : keeps kept hit ↔ keeps kept' hit' := hkeeps _ _ _ _ hkept hhit.symm
    by_cases hkeep : keeps kept hit
    · have hnext : (hit :: kept).map Hit.label = (hit' :: kept').map Hit.label := by
        simp [hkept, hhit]
      rw [hscan.keep hkeep, hscan.keep (hsame.mp hkeep)]
      simp [hhit, ih hnext hrest.symm]
    · rw [hscan.drop hkeep, hscan.drop (hsame.not.mp hkeep)]
      exact ih hkept hrest.symm

lemma label_rivals (scope : DedupScope) (hkept : kept.map Hit.label = kept'.map Hit.label)
    (hhit : hit.label = hit'.label) :
    (rivals scope kept hit).map Hit.label = (rivals scope kept' hit').map Hit.label := by
  obtain ⟨-, hpart, -⟩ := Hit.label_eq_iff.mp hhit
  cases scope with
  | perPart =>
    have hfiltered := congrArg (List.filter fun label => label.2.1 == hit.part) hkept
    simpa [rivals, List.filter_map, Function.comp_def, Hit.label, hpart] using hfiltered
  | adjacent =>
    have htaken := congrArg (List.takeWhile fun label => label.2.1 == hit.part) hkept
    simpa [rivals, List.takeWhile_map, Function.comp_def, Hit.label, hpart] using htaken

lemma isDuplicate_congr (tolerance : Float32) (scope : DedupScope)
    (hkept : kept.map Hit.label = kept'.map Hit.label) (hhit : hit.label = hit'.label) :
    isDuplicate tolerance scope kept hit = isDuplicate tolerance scope kept' hit' := by
  obtain ⟨hdistance, -, -⟩ := Hit.label_eq_iff.mp hhit
  have hany := congrArg (List.any · fun label => Distance.near tolerance ⟨label.1⟩ hit.distance)
    (label_rivals scope hkept hhit)
  simpa [isDuplicate, List.any_map, Function.comp_def, Hit.label, hdistance] using hany

lemma label_survivors (tolerance : Float32) (scope : DedupScope)
    (h : l.map Hit.label = l'.map Hit.label) :
    (survivors tolerance scope [] l).map Hit.label =
      (survivors tolerance scope [] l').map Hit.label := by
  apply (isScan_survivors tolerance scope).label_congr _ rfl h
  intro kept kept' hit hit' hkept hhit
  rw [isDuplicate_congr tolerance scope hkept hhit]

lemma hasRoom_congr (limits : HitLimits) (hkept : kept.map Hit.label = kept'.map Hit.label)
    (hhit : hit.label = hit'.label) : HasRoom limits kept hit ↔ HasRoom limits kept' hit' := by
  obtain ⟨-, hpart, hgroup⟩ := Hit.label_eq_iff.mp hhit
  have hlength : kept.length = kept'.length := by simpa using congrArg List.length hkept
  have hparts := congrArg (List.countP fun t => t.2.1 == hit.part) hkept
  have hgroups := congrArg (List.countP fun t => t.2.2 == hit.group) hkept
  simp only [List.countP_map, Function.comp_def, Hit.label] at hparts hgroups
  rw [HasRoom, HasRoom, hlength, hparts, hgroups, hpart, hgroup]

lemma label_capped (limits : HitLimits) (h : l.map Hit.label = l'.map Hit.label) :
    (capped limits [] l).map Hit.label = (capped limits [] l').map Hit.label := by
  apply (isScan_capped limits).label_congr _ rfl h
  intro kept kept' hit hit' hkept hhit
  exact hasRoom_congr limits hkept hhit

/-! ### Hits that arrive in another order -/

/-- Sorting leaves no choice between labels. -/
lemma label_sorted (h : l.Perm l') :
    ({ c with hits := l } : Collector).sorted.map Hit.label =
      ({ c with hits := l' } : Collector).sorted.map Hit.label := by
  set one : Collector := { c with hits := l }
  set other : Collector := { c with hits := l' }
  have hkeys : one.sorted.map Hit.sortKey = other.sorted.map Hit.sortKey := by
    -- sort keys are ordered without ties, so their order is the only one
    apply List.Perm.eq_of_pairwise (fun _ _ _ _ hab hba => le_antisymm hab hba)
    · exact List.pairwise_map.mpr one.pairwise_sorted
    · exact List.pairwise_map.mpr other.pairwise_sorted
    · exact (one.sorted_perm.trans (h.trans other.sorted_perm.symm)).map Hit.sortKey
  rw [← List.forall₂_eq_eq_eq, List.forall₂_map_left_iff, List.forall₂_map_right_iff] at hkeys ⊢
  exact hkeys.imp fun _ _ hkey => Hit.sortKey_eq_iff.mp hkey

lemma label_dedup (h : l.Perm l') :
    ({ c with hits := l } : Collector).dedup.hits.map Hit.label =
      ({ c with hits := l' } : Collector).dedup.hits.map Hit.label :=
  label_survivors c.tolerance c.scope (label_sorted h)

lemma label_finalHits (h : l.Perm l') (requested : ℕ) :
    (({ c with hits := l } : Collector).finalHits requested).map Hit.label =
      (({ c with hits := l' } : Collector).finalHits requested).map Hit.label := by
  simp only [finalHits, List.map_take]
  rw [label_capped c.limits (label_dedup h)]

/-- Labels name the hits of a list that has no different hits with one label. -/
lemma eq_of_label_eq (h : l.map Hit.label = l'.map Hit.label)
    (hdistinct : ∀ a ∈ l, ∀ b ∈ l', a ≠ b → a.label ≠ b.label) : l = l' := by
  induction l generalizing l' with
  | nil => exact (List.map_eq_nil_iff.mp h.symm).symm
  | cons hit rest ih =>
    obtain ⟨hit', rest', rfl, hhit, hrest⟩ := List.map_eq_cons_iff.mp h.symm
    obtain rfl : hit = hit' := by
      by_contra hne
      exact hdistinct hit List.mem_cons_self hit' List.mem_cons_self hne hhit.symm
    have htail : rest = rest' := by
      apply ih hrest.symm
      intro a ha b hb
      exact hdistinct a (List.mem_cons_of_mem _ ha) b (List.mem_cons_of_mem _ hb)
    rw [htail]

lemma dropped_perm (h : l.Perm l') :
    ({ c with hits := l } : Collector).dropped = ({ c with hits := l' } : Collector).dropped := by
  have hdedup := congrArg List.length (label_dedup (c := c) h)
  simp only [List.length_map] at hdedup
  simp only [dropped, hdedup, h.length_eq]

/-- Hits that arrive one by one are held after those that were there. -/
lemma after_map_push (c : Collector) (arrived : List Hit) :
    c.after (arrived.map .push) = { c with hits := c.hits ++ arrived } := by
  induction arrived generalizing c with
  | nil => simp [after]
  | cons hit rest ih =>
    calc c.after ((hit :: rest).map .push)
        = (c.push hit).after (rest.map .push) := rfl
      _ = { c with hits := c.hits ++ [hit] ++ rest } := ih (c.push hit)
      _ = { c with hits := c.hits ++ hit :: rest } := by
        rw [List.append_assoc, List.singleton_append]

/-- When hits arrive in another order, the reported ones agree in distance, part and group place by
place, and as many near-duplicates are dropped. If different hits differ in one of the three, the
same hits are reported. -/
theorem finish_perm (c : Collector) {arrived arrived' : List Hit} (h : arrived.Perm arrived')
    (requested : ℕ) :
    let one := c.after (arrived.map .push)
    let other := c.after (arrived'.map .push)
    (one.finish requested).toList.map Hit.label = (other.finish requested).toList.map Hit.label ∧
    one.dropped = other.dropped ∧
    ((∀ a ∈ one.hits, ∀ b ∈ one.hits, a ≠ b → a.label ≠ b.label) →
      one.finish requested = other.finish requested) := by
  intro one other
  have hone : one = { c with hits := c.hits ++ arrived } := c.after_map_push arrived
  have hother : other = { c with hits := c.hits ++ arrived' } := c.after_map_push arrived'
  have hheld : (c.hits ++ arrived).Perm (c.hits ++ arrived') := h.append_left c.hits
  have hlabels : (one.finalHits requested).map Hit.label =
      (other.finalHits requested).map Hit.label := by
    rw [hone, hother]
    exact label_finalHits hheld requested
  refine ⟨?_, ?_, ?_⟩
  · simpa only [finish, Outcome.toList_ofList] using hlabels
  · rw [hone, hother]
    exact dropped_perm hheld
  · intro hdistinct
    have hsame : one.finalHits requested = other.finalHits requested := by
      apply eq_of_label_eq hlabels
      intro a ha b hb
      have hmem : b ∈ one.hits := by
        have hb' : b ∈ other.hits := (other.finalHits_subperm requested).subset hb
        rw [hone]
        rw [hother] at hb'
        exact hheld.symm.subset hb'
      exact hdistinct a ((one.finalHits_subperm requested).subset ha) b hmem
    rw [finish, finish, hsame]

/-- A hit whose distance is no number, and three hits of the same part that are less than `0.001`
apart from one to the next, the last of them of another group. -/
theorem finish_perm_chain :
    let hit (group : UInt64) (bits : UInt32) : Hit :=
      ⟨⟨1⟩, ⟨group⟩, 0, Vec3.zero, Vec3.zero, ⟨bits⟩⟩
    let c : Collector := { tolerance := 0.001, scope := .perPart, limits := {} }
    let arrived := [hit 2 0xffc00000, hit 1 0x40a00000, hit 1 0x40a0068e, hit 2 0x40a00d1b]
    let one := c.after (arrived.map .push)
    let other := c.after (arrived.reverse.map .push)
    arrived.Perm arrived.reverse ∧
    (∀ a ∈ one.hits, ∀ b ∈ one.hits, a ≠ b → a.label ≠ b.label) ∧
    (other.finish 3).toList.map Hit.label =
      [(0xffc00000, ⟨1⟩, ⟨2⟩), (0x40a00000, ⟨1⟩, ⟨1⟩), (0x40a00d1b, ⟨1⟩, ⟨2⟩)] ∧
    one.finish 3 = other.finish 3 := by
  intro hit c arrived one other
  have hperm : arrived.Perm arrived.reverse := arrived.reverse_perm.symm
  have hdistinct : ∀ a ∈ one.hits, ∀ b ∈ one.hits, a ≠ b → a.label ≠ b.label := by
    have hlabels : (one.hits.map Hit.label).Nodup := by decide +kernel
    intro a ha b hb hne hlabel
    exact hne (List.inj_on_of_nodup_map hlabels ha hb hlabel)
  have hsame : one.finish 3 = other.finish 3 := (finish_perm c hperm 3).2.2 hdistinct
  have hsorted : one.sorted = one.hits := List.mergeSort_of_pairwise (by decide +kernel)
  refine ⟨hperm, hdistinct, ?_, hsame⟩
  rw [← hsame, finish, Outcome.toList_ofList, finalHits, dedup, hsorted]
  decide +kernel

end Collector

end Sightline
