import Mathlib.Data.List.TakeWhile
import Mathlib.Tactic
import Sightline.Budget.Ledger

/-!
# The rolling window

The ledger drops charges from its front once they are too old to count. As long as the clock never
goes back, this is never noticed: at any time, what is left after dropping is exactly what counts of
all charges ever made, and every answer is the answer that this whole history gives.
-/

namespace Sightline

namespace Ledger

variable {l l' l'' : Ledger} {window t now : Nanoseconds} {history : List Charge}

/-! ### Charges that are shed -/

lemma expired_iff {c : Charge} : expired window now c = true ↔ window < now - c.stamp := by
  rw [expired, decide_eq_true_iff]

lemma expired_mono {c : Charge} (hle : t ≤ now) (h : expired window t c = true) :
    expired window now c = true := by
  rw [expired_iff] at h ⊢
  exact h.trans_le (Nat.sub_le_sub_right hle c.stamp)

/-- A ledger is left with another when it sheds charges at its front that are too old to count. -/
def Sheds (l : Ledger) (window now : Nanoseconds) (l' : Ledger) : Prop :=
  ∃ old, l.charges = old ++ l'.charges ∧ ∀ c ∈ old, expired window now c = true

lemma Sheds.refl (l : Ledger) (window now : Nanoseconds) : l.Sheds window now l :=
  ⟨[], rfl, by simp⟩

lemma Sheds.mono (h : l.Sheds window t l') (hle : t ≤ now) : l.Sheds window now l' := by
  obtain ⟨old, hcharges, hold⟩ := h
  exact ⟨old, hcharges, fun c hc => expired_mono hle (hold c hc)⟩

lemma Sheds.trans (h : l.Sheds window now l') (h' : l'.Sheds window now l'') :
    l.Sheds window now l'' := by
  obtain ⟨old, hcharges, hold⟩ := h
  obtain ⟨old', hcharges', hold'⟩ := h'
  refine ⟨old ++ old', by rw [hcharges, hcharges', List.append_assoc], fun c hc => ?_⟩
  rcases List.mem_append.mp hc with hc | hc
  · exact hold c hc
  · exact hold' c hc

/-- Charges made afterwards make no difference to what is shed. -/
lemma Sheds.append (h : l.Sheds window now l') (charges : List Charge) :
    (Ledger.mk (l.charges ++ charges)).Sheds window now ⟨l'.charges ++ charges⟩ := by
  obtain ⟨old, hcharges, hold⟩ := h
  exact ⟨old, by rw [hcharges, List.append_assoc], hold⟩

lemma sheds_prune (l : Ledger) (window now : Nanoseconds) :
    l.Sheds window now (l.prune window now) :=
  ⟨l.charges.takeWhile (expired window now), List.takeWhile_append_dropWhile.symm,
    fun _ hc => List.mem_takeWhile_imp hc⟩

/-! ### Charges that count -/

/-- The charges of a history that count at a reading of the clock. -/
def counting (window now : Nanoseconds) (history : List Charge) : List Charge :=
  history.filter fun c => now - c.stamp ≤ window

lemma counting_eq_nil (h : ∀ c ∈ history, expired window now c = true) :
    counting window now history = [] := by
  rw [counting, List.filter_eq_nil_iff]
  intro c hc
  rw [decide_eq_true_iff]
  exact not_le.mpr (expired_iff.mp (h c hc))

/-- Where charges are in order of time, no old one hides behind one that counts. -/
lemma prune_charges_of_ordered (h : l.charges.Pairwise fun a b => a.stamp ≤ b.stamp) :
    (l.prune window now).charges = counting window now l.charges := by
  obtain ⟨charges⟩ := l
  simp only [prune, counting] at h ⊢
  induction charges with
  | nil => rfl
  | cons c rest ih =>
    obtain ⟨hfirst, hrest⟩ := List.pairwise_cons.mp h
    by_cases hold : expired window now c = true
    · have hnot : ¬ now - c.stamp ≤ window := not_le.mpr (expired_iff.mp hold)
      rw [List.dropWhile_cons_of_pos hold, List.filter_cons_of_neg (by simpa using hnot)]
      exact ih hrest
    -- dropping stops at the first charge that counts, and all charges after it are younger
    · have hcounts : ∀ d ∈ c :: rest, now - d.stamp ≤ window := by
        have hc : now - c.stamp ≤ window := not_lt.mp (mt expired_iff.mpr hold)
        intro d hd
        rcases List.mem_cons.mp hd with rfl | hd
        · exact hc
        · exact (Nat.sub_le_sub_left (hfirst d hd) now).trans hc
      rw [List.dropWhile_cons_of_neg hold, List.filter_eq_self.mpr]
      simpa using hcounts

/-! ### The history behind a ledger -/

/-- The ledger is what is left, at a reading of the clock, of a history of charges. -/
structure Remembers (l : Ledger) (window now : Nanoseconds) (history : List Charge) : Prop where
  /-- Charges were made in order of time. -/
  ordered : history.Pairwise fun a b => a.stamp ≤ b.stamp
  /-- No charge is from the future. -/
  past : ∀ c ∈ history, c.stamp ≤ now
  /-- Only charges that are too old to count are missing. -/
  sheds : (Ledger.mk history).Sheds window now l

namespace Remembers

lemma empty (window now : Nanoseconds) : Ledger.empty.Remembers window now [] where
  ordered := List.Pairwise.nil
  past := by simp
  sheds := Sheds.refl _ _ _

lemma mono (h : l.Remembers window t history) (hle : t ≤ now) :
    l.Remembers window now history where
  ordered := h.ordered
  past := fun c hc => (h.past c hc).trans hle
  sheds := h.sheds.mono hle

lemma shed (h : l.Remembers window now history) (hsheds : l.Sheds window now l') :
    l'.Remembers window now history where
  ordered := h.ordered
  past := h.past
  sheds := h.sheds.trans hsheds

/-- The charge made now is the last one of the history. -/
lemma append (h : l.Remembers window now history) (c : Charge) (hnow : c.stamp = now) :
    (Ledger.mk (l.charges ++ [c])).Remembers window now (history ++ [c]) where
  ordered := by
    refine List.pairwise_append.mpr ⟨h.ordered, List.pairwise_singleton _ _, ?_⟩
    intro a ha b hb
    rw [List.mem_singleton.mp hb, hnow]
    exact h.past a ha
  past := by
    intro a ha
    rcases List.mem_append.mp ha with ha | ha
    · exact h.past a ha
    · rw [List.mem_singleton.mp ha, hnow]
  sheds := h.sheds.append [c]

/-- What dropping old charges leaves is what counts of the whole history. -/
lemma prune_charges (h : l.Remembers window now history) :
    (l.prune window now).charges = counting window now history := by
  obtain ⟨old, hcharges, hold⟩ := h.sheds
  replace hcharges : history = old ++ l.charges := hcharges
  have hordered : l.charges.Pairwise fun a b => a.stamp ≤ b.stamp :=
    h.ordered.sublist (hcharges ▸ List.sublist_append_right old l.charges)
  calc (l.prune window now).charges
      = counting window now l.charges := prune_charges_of_ordered hordered
    _ = counting window now old ++ counting window now l.charges := by
        rw [counting_eq_nil hold, List.nil_append]
    _ = counting window now (old ++ l.charges) := (List.filter_append ..).symm
    _ = counting window now history := by rw [← hcharges]

end Remembers

end Ledger

/-! ### Calls at readings of the clock -/

/-- A call on the ledger of a budget. -/
inductive BudgetCall where
  /-- Ask for leave to run a call. -/
  | request (region : RegionId) (user : UserId)
  /-- Charge a call that ran under a grant. -/
  | charge (grant : Grant) (cost : Nanoseconds)
  /-- Ask what may still be spent. -/
  | available (region : RegionId) (user : UserId)
  /-- Ask for the number of charges that count. -/
  | size

/-- The charge that a call makes. -/
def BudgetCall.made? (now : Nanoseconds) : BudgetCall → Option Charge
  | .charge grant cost => some ⟨grant.region, grant.user, now, cost.toMillis⟩
  | .request _ _ | .available _ _ | .size => none

/-- The charges that calls make, each at its reading of the clock. -/
def chargesMade (calls : List (Nanoseconds × BudgetCall)) : List Charge :=
  calls.filterMap fun (now, call) => call.made? now

lemma chargesMade_cons (now : Nanoseconds) (call : BudgetCall)
    (rest : List (Nanoseconds × BudgetCall)) :
    chargesMade ((now, call) :: rest) = (call.made? now).toList ++ chargesMade rest := by
  cases call <;> rfl

lemma chargesMade_append (calls calls' : List (Nanoseconds × BudgetCall)) :
    chargesMade (calls ++ calls') = chargesMade calls ++ chargesMade calls' :=
  List.filterMap_append

/-- Readings that go on from the last one before are in order with all before. -/
lemma readings_append {before after : List Nanoseconds} {now : Nanoseconds}
    (hbefore : (before ++ [now]).Pairwise (· ≤ ·)) (hafter : (now :: after).Pairwise (· ≤ ·)) :
    (before ++ after).Pairwise (· ≤ ·) := by
  obtain ⟨hordered, -, hnow⟩ := List.pairwise_append.mp hbefore
  obtain ⟨hlater, hordered'⟩ := List.pairwise_cons.mp hafter
  refine List.pairwise_append.mpr ⟨hordered, hordered', fun a ha b hb => ?_⟩
  exact (hnow a ha now (List.mem_singleton_self now)).trans (hlater b hb)

/-- What is left to a user in a region if only the given charges count: what is left to the region
or to the user, whichever is less. -/
def BudgetSettings.leftOver (s : BudgetSettings) (charges : List Charge) (region : RegionId)
    (user : UserId) : Float32 :=
  let total (charges : List Charge) : Float32 := (charges.map Charge.costMs).foldl (· + ·) 0
  Scalar.min (s.regionMs - total (charges.filter (·.region = region)))
    (s.userMs - total (charges.filter (·.user = user)))

namespace Ledger

variable {l : Ledger} {t now : Nanoseconds} {history : List Charge} {s : BudgetSettings}

/-- The ledger after a call. -/
def afterCall (s : BudgetSettings) (l : Ledger) (now : Nanoseconds) : BudgetCall → Ledger
  | .request region user => (l.request s now region user).2
  | .charge grant cost => l.charge s now grant cost
  | .available region user => (l.availableAt s now region user).2
  | .size => (l.sizeAt s now).2

/-- The ledger after calls, the first one first. -/
def after (s : BudgetSettings) (l : Ledger) (calls : List (Nanoseconds × BudgetCall)) : Ledger :=
  calls.foldl (fun l (now, call) => l.afterCall s now call) l

@[simp] lemma after_nil (s : BudgetSettings) (l : Ledger) : l.after s [] = l := rfl

@[simp] lemma after_cons (s : BudgetSettings) (l : Ledger) (now : Nanoseconds) (call : BudgetCall)
    (rest : List (Nanoseconds × BudgetCall)) :
    l.after s ((now, call) :: rest) = (l.afterCall s now call).after s rest := rfl

lemma after_append (s : BudgetSettings) (l : Ledger)
    (calls calls' : List (Nanoseconds × BudgetCall)) :
    l.after s (calls ++ calls') = (l.after s calls).after s calls' := List.foldl_append

/-- A request is granted unless less than the minimum is left of what counts. -/
lemma request_eq (l : Ledger) (s : BudgetSettings) (now : Nanoseconds) (region : RegionId)
    (user : UserId) :
    l.request s now region user =
      (if (l.prune s.window now).available s region user < s.minimumMs then
        .error ⟨(l.prune s.window now).available s region user⟩
      else .ok ⟨region, user, now, (l.prune s.window now).available s region user⟩,
      l.prune s.window now) := by
  by_cases hless : (l.prune s.window now).available s region user < s.minimumMs
  · simp [request, availableAt, hless]
  · simp [request, availableAt, hless]

lemma available_eq_leftOver (l : Ledger) (s : BudgetSettings) (region : RegionId)
    (user : UserId) : l.available s region user = s.leftOver l.charges region user := by
  simp only [available, BudgetSettings.leftOver, spent, List.foldl_map, beq_eq_decide]

/-- A call drops old charges, and a charge is made at the end. -/
lemma afterCall_eq (s : BudgetSettings) (l : Ledger) (now : Nanoseconds) (call : BudgetCall) :
    l.afterCall s now call =
      ⟨(l.prune s.window now).charges ++ (call.made? now).toList⟩ := by
  cases call with
  | request region user => simp [afterCall, request_eq, BudgetCall.made?]
  | charge grant cost => rfl
  | available region user => simp [afterCall, availableAt, BudgetCall.made?]
  | size => simp [afterCall, sizeAt, BudgetCall.made?]

lemma Remembers.afterCall (h : l.Remembers s.window now history) (call : BudgetCall) :
    (l.afterCall s now call).Remembers s.window now (history ++ (call.made? now).toList) := by
  have hpruned := h.shed (l.sheds_prune s.window now)
  rw [afterCall_eq]
  cases call with
  | charge grant cost => exact hpruned.append _ rfl
  | request region user => simpa [BudgetCall.made?] using hpruned
  | available region user => simpa [BudgetCall.made?] using hpruned
  | size => simpa [BudgetCall.made?] using hpruned

lemma Remembers.after (h : l.Remembers s.window t history)
    (calls : List (Nanoseconds × BudgetCall))
    (hclock : (t :: (calls.map Prod.fst ++ [now])).Pairwise (· ≤ ·)) :
    (l.after s calls).Remembers s.window now (history ++ chargesMade calls) := by
  induction calls generalizing l t history with
  | nil =>
    have hle : t ≤ now := List.rel_of_pairwise_cons hclock (List.mem_singleton_self now)
    simpa [chargesMade] using h.mono hle
  | cons timed rest ih =>
    obtain ⟨reading, call⟩ := timed
    obtain ⟨hfirst, hrest⟩ := List.pairwise_cons.mp hclock
    have hle : t ≤ reading := hfirst reading List.mem_cons_self
    have hnext := ih ((h.mono hle).afterCall call) hrest
    rw [List.append_assoc, ← chargesMade_cons] at hnext
    exact hnext

/-- What is left of a ledger that was empty at first is what is left of the charges made. -/
lemma remembers_after_empty {calls : List (Nanoseconds × BudgetCall)}
    (hclock : (calls.map Prod.fst ++ [now]).Pairwise (· ≤ ·)) :
    (empty.after s calls).Remembers s.window now (chargesMade calls) := by
  have hclock₀ : ((0 : Nanoseconds) :: (calls.map Prod.fst ++ [now])).Pairwise (· ≤ ·) :=
    List.pairwise_cons.mpr ⟨fun _ _ => Nat.zero_le _, hclock⟩
  exact (Remembers.empty s.window 0).after calls hclock₀

/-- Whatever was called before, as long as the clock never goes back, the ledger answers as the
history of all charges does. -/
theorem answers_after (s : BudgetSettings) (calls : List (Nanoseconds × BudgetCall))
    (now : Nanoseconds) (hclock : (calls.map Prod.fst ++ [now]).Pairwise (· ≤ ·)) :
    let l := empty.after s calls
    let charges := counting s.window now (chargesMade calls)
    (l.prune s.window now).charges = charges ∧
    (l.sizeAt s now).1 = charges.length ∧
    ∀ region user,
      (l.availableAt s now region user).1 = s.leftOver charges region user ∧
      (l.request s now region user).1 =
        if s.leftOver charges region user < s.minimumMs
        then .error ⟨s.leftOver charges region user⟩
        else .ok ⟨region, user, now, s.leftOver charges region user⟩ := by
  intro l charges
  have hcharges : (l.prune s.window now).charges = charges :=
    (remembers_after_empty hclock).prune_charges
  have hleft : ∀ region user,
      (l.prune s.window now).available s region user = s.leftOver charges region user := by
    intro region user
    rw [available_eq_leftOver, hcharges]
  refine ⟨hcharges, congrArg List.length hcharges, fun region user => ⟨hleft region user, ?_⟩⟩
  rw [request_eq, hleft]

/-- With a window of a second, a charge made at the origin no longer counts after 1.2 seconds, while
one made late for the same grant does. -/
theorem answers_after_late_charge :
    let grant : Grant := ⟨⟨1⟩, ⟨7⟩, 0, 10⟩
    let now : Nanoseconds := .ofMillis 1200
    let calls : List (Nanoseconds × BudgetCall) :=
      [(0, .charge grant (.ofMillis 3)), (.ofMillis 400, .request ⟨1⟩ ⟨8⟩),
        (.ofMillis 600, .charge grant (.ofMillis 4))]
    (calls.map Prod.fst ++ [now]).Pairwise (· ≤ ·) ∧
    ((empty.after {} calls).sizeAt {} now).1 = 1 := by
  intro grant now calls
  have hclock : (calls.map Prod.fst ++ [now]).Pairwise (· ≤ ·) := by decide
  have hlength : (counting ({} : BudgetSettings).window now (chargesMade calls)).length = 1 := by
    simp [calls, grant, now, chargesMade, BudgetCall.made?, counting, BudgetSettings.window,
      Nanoseconds.ofMillis, Nanoseconds.perMillisecond]
  exact ⟨hclock, (answers_after {} calls now hclock).2.1.trans hlength⟩

end Ledger

end Sightline
