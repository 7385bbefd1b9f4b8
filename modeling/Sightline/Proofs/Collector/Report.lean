import Sightline.Proofs.Collector.Selection

/-!
# What a collector reports

A collector is used by calls: hits arrive one by one or in lots, and near-duplicates may be dropped
at any time. Whatever calls were made, what is reported in the end is an ordered selection of the
hits that arrived, within the limits.
-/

namespace Sightline

/-- A call on a collector. -/
inductive CollectorCall where
  /-- Take in a hit. -/
  | push (hit : Hit)
  /-- Take in several hits. -/
  | extend (hits : List Hit)
  /-- Sort what is held and drop near-duplicates. -/
  | dedup

/-- The hits that arrive with a call. -/
def CollectorCall.arriving : CollectorCall → List Hit
  | .push hit => [hit]
  | .extend hits => hits
  | .dedup => []

namespace Collector

/-- The collector after a call. -/
def afterCall (c : Collector) : CollectorCall → Collector
  | .push hit => c.push hit
  | .extend hits => c.extend hits
  | .dedup => c.dedup

/-- The collector after calls, the first one first. -/
def after (c : Collector) (calls : List CollectorCall) : Collector := calls.foldl afterCall c

/-- The hits held at first and those that arrive with calls. -/
def received (c : Collector) (calls : List CollectorCall) : List Hit :=
  c.hits ++ calls.flatMap CollectorCall.arriving

/-! ### One call -/

/-- No call changes the settings. -/
lemma afterCall_settings (c : Collector) (call : CollectorCall) :
    (c.afterCall call).tolerance = c.tolerance ∧ (c.afterCall call).scope = c.scope ∧
      (c.afterCall call).limits = c.limits := by
  cases call <;> exact ⟨rfl, rfl, rfl⟩

/-- A call adds what arrives with it, or drops something. -/
lemma afterCall_hits_subperm (c : Collector) (call : CollectorCall) :
    (c.afterCall call).hits.Subperm (c.hits ++ call.arriving) := by
  cases call with
  | push hit => exact List.Subperm.refl _
  | extend hits => exact List.Subperm.refl _
  | dedup =>
    rw [CollectorCall.arriving, List.append_nil]
    exact c.dedup_hits_subperm

/-! ### Several calls -/

lemma after_settings (c : Collector) (calls : List CollectorCall) :
    (c.after calls).tolerance = c.tolerance ∧ (c.after calls).scope = c.scope ∧
      (c.after calls).limits = c.limits := by
  induction calls generalizing c with
  | nil => exact ⟨rfl, rfl, rfl⟩
  | cons call rest ih =>
    obtain ⟨htolerance, hscope, hlimits⟩ := ih (c.afterCall call)
    obtain ⟨htolerance', hscope', hlimits'⟩ := c.afterCall_settings call
    exact ⟨htolerance.trans htolerance', hscope.trans hscope', hlimits.trans hlimits'⟩

/-- No sequence of calls makes up a hit. -/
lemma after_hits_subperm (c : Collector) (calls : List CollectorCall) :
    (c.after calls).hits.Subperm (c.received calls) := by
  induction calls generalizing c with
  | nil =>
    rw [received, List.flatMap_nil, List.append_nil]
    exact List.Subperm.refl _
  | cons call rest ih =>
    have hrest : ((c.afterCall call).after rest).hits.Subperm
        ((c.afterCall call).hits ++ rest.flatMap CollectorCall.arriving) := ih (c.afterCall call)
    refine hrest.trans ?_
    rw [received, List.flatMap_cons, ← List.append_assoc]
    exact (List.subperm_append_right _).mpr (c.afterCall_hits_subperm call)

/-! ### The report -/

/-- What a collector with the settings of `c` reports when it holds `held`, out of all the hits
`received`, and `requested` hits are asked for. -/
structure Reports (c : Collector) (received held : List Hit) (requested : ℕ)
    (outcome : Outcome) : Prop where
  /-- No hit is reported more often than it arrived. -/
  subperm : outcome.toList.Subperm received
  /-- Hits are in order of distance, then part, then group. -/
  ordered : outcome.toList.Pairwise fun a b => a.sortKey ≤ b.sortKey
  /-- There are no more hits than are asked for and allowed. -/
  length_le : outcome.toList.length ≤ min requested c.limits.maxHits.toNat
  /-- There are no more hits of one part than are allowed. -/
  part_le : ∀ part, outcome.toList.countP (·.part == part) ≤ c.limits.perPart.toNat
  /-- There are no more hits of one group than are allowed. -/
  group_le : ∀ group, outcome.toList.countP (·.group == group) ≤ c.limits.perGroup.toNat
  /-- Hits of one part are apart if all of them are held against each other. -/
  apart : c.scope = .perPart → outcome.toList.Pairwise (Apart c.tolerance)
  /-- Hits are only reported if there are any. -/
  hits_ne_nil : outcome ≠ .hits []
  /-- Nothing is reported only if nothing is held or nothing may be reported. -/
  noHit_iff : outcome = .noHit ↔
    held = [] ∨ requested = 0 ∨
      c.limits.maxHits = 0 ∨ c.limits.perPart = 0 ∨ c.limits.perGroup = 0

/-- A single report, of all that is held. -/
lemma finish_reports (c : Collector) (requested : ℕ) :
    c.Reports c.hits c.hits requested (c.finish requested) := by
  have hlist : (c.finish requested).toList = c.finalHits requested := Outcome.toList_ofList _
  constructor
  case subperm => exact hlist ▸ c.finalHits_subperm requested
  case ordered => exact hlist ▸ c.finalHits_pairwise_sortKey requested
  case length_le => exact hlist ▸ c.finalHits_length_le requested
  case part_le =>
    intro part
    rw [hlist]
    refine countP_finalHits_le (fun taken hit hroom hpart => ?_) requested
    rw [← beq_iff_eq.mp hpart]
    exact hroom.2.1
  case group_le =>
    intro group
    rw [hlist]
    refine countP_finalHits_le (fun taken hit hroom hgroup => ?_) requested
    rw [← beq_iff_eq.mp hgroup]
    exact hroom.2.2
  case apart => exact fun hscope => hlist ▸ c.finalHits_pairwise_apart requested hscope
  case hits_ne_nil => exact Outcome.ofList_ne_hits_nil _
  case noHit_iff => exact (Outcome.ofList_eq_noHit_iff _).trans (c.finalHits_eq_nil_iff requested)

/-- Whatever calls were made, what is reported is an ordered selection within the limits. A new
collector holds nothing, so that all it received came with the calls. -/
theorem finish_after_reports (c : Collector) (calls : List CollectorCall) (requested : ℕ) :
    c.Reports (c.received calls) (c.after calls).hits requested
      ((c.after calls).finish requested) := by
  have h := (c.after calls).finish_reports requested
  obtain ⟨htolerance, hscope, hlimits⟩ := c.after_settings calls
  constructor
  case subperm => exact h.subperm.trans (c.after_hits_subperm calls)
  case ordered => exact h.ordered
  case length_le => exact hlimits ▸ h.length_le
  case part_le => exact hlimits ▸ h.part_le
  case group_le => exact hlimits ▸ h.group_le
  case apart => exact fun hperPart => htolerance ▸ h.apart (hscope.trans hperPart)
  case hits_ne_nil => exact h.hits_ne_nil
  case noHit_iff => exact hlimits ▸ h.noHit_iff

end Collector

end Sightline
