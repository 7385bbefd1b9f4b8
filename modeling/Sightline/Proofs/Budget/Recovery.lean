import Mathlib.Tactic
import Sightline.Proofs.Budget.Window
import Sightline.Proofs.Single.Bits
import Sightline.Settings.Basic

/-!
# Recovery of the budget

Once the window has passed since the last charge, no charge counts any longer and the whole budget
is there again, whatever was spent before. This does not mean that a call is granted: settings may
ask for a minimum that is more than the whole budget, and then no call ever is.
-/

namespace Sightline

/-- What may be spent while no charge counts: the budget of a region or of a user, whichever is
less. -/
def BudgetSettings.wholeMs (s : BudgetSettings) : Float32 := Scalar.min s.regionMs s.userMs

namespace Ledger

variable {window now : Nanoseconds} {history : List Charge}

lemma leftOver_nil (s : BudgetSettings) (region : RegionId) (user : UserId) :
    s.leftOver [] region user = s.wholeMs := by
  simp only [BudgetSettings.leftOver, BudgetSettings.wholeMs, List.filter_nil, List.map_nil,
    List.foldl_nil, Single.sub_zero]

/-- Charges are made in order of time, so if the last one is too old to count, all are. -/
lemma counting_eq_nil_of_last (hordered : history.Pairwise fun a b => a.stamp ≤ b.stamp)
    (hlast : ∀ last ∈ history.getLast?, window < now - last.stamp) :
    counting window now history = [] := by
  refine counting_eq_nil fun c hc => ?_
  obtain ⟨before, last, rfl⟩ :=
    (List.eq_nil_or_concat history).resolve_left (List.ne_nil_of_mem hc)
  have hold : window < now - last.stamp := hlast last (by simp)
  rw [List.concat_eq_append] at hordered hc
  have hle : c.stamp ≤ last.stamp := by
    rcases List.mem_append.mp hc with hbefore | hc
    · exact (List.pairwise_append.mp hordered).2.2 c hbefore last (List.mem_singleton_self last)
    · rw [List.mem_singleton.mp hc]
  exact expired_iff.mpr (hold.trans_le (Nat.sub_le_sub_left hle now))

/-- Whatever was called before, if no charge was made or the last one is older than the window, then
nothing is left in the ledger and the whole budget is available. A call is granted unless the whole
budget is less than the minimum. -/
theorem request_recovers (s : BudgetSettings) (calls : List (Nanoseconds × BudgetCall))
    (now : Nanoseconds) (hclock : (calls.map Prod.fst ++ [now]).Pairwise (· ≤ ·))
    (hlast : ∀ last ∈ (chargesMade calls).getLast?, s.window < now - last.stamp)
    (region : RegionId) (user : UserId) :
    ((empty.after s calls).availableAt s now region user).1 = s.wholeMs ∧
    (empty.after s calls).request s now region user =
      (if s.wholeMs < s.minimumMs then .error ⟨s.wholeMs⟩ else .ok ⟨region, user, now, s.wholeMs⟩,
        empty) := by
  have hremembers := remembers_after_empty (s := s) hclock
  have hpruned : (empty.after s calls).prune s.window now = empty := by
    have hcharges := hremembers.prune_charges
    rw [counting_eq_nil_of_last hremembers.ordered hlast] at hcharges
    exact congrArg Ledger.mk hcharges
  have hwhole : empty.available s region user = s.wholeMs := by
    rw [available_eq_leftOver]
    exact leftOver_nil s region user
  constructor
  · simp only [availableAt, hpruned, hwhole]
  · rw [request_eq, hpruned, hwhole]

/-- A user overdrew the budget at the origin, and is granted a call again after 1.2 seconds. -/
theorem request_recovers_overdrawn :
    let s : BudgetSettings := {}
    let grant : Grant := ⟨⟨1⟩, ⟨7⟩, 0, 10⟩
    let calls : List (Nanoseconds × BudgetCall) :=
      [(0, .charge grant (.ofMillis 30)), (.ofMillis 600, .request ⟨1⟩ ⟨7⟩)]
    let now : Nanoseconds := .ofMillis 1200
    (calls.map Prod.fst ++ [now]).Pairwise (· ≤ ·) ∧
    (∀ last ∈ (chargesMade calls).getLast?, s.window < now - last.stamp) ∧
    ((empty.charge s 0 grant (.ofMillis 30)).request s (.ofMillis 600) ⟨1⟩ ⟨7⟩).1.isOk = false ∧
    ((empty.after s calls).request s now ⟨1⟩ ⟨7⟩).1 = .ok ⟨⟨1⟩, ⟨7⟩, now, s.wholeMs⟩ := by
  intro s grant calls now
  have hclock : (calls.map Prod.fst ++ [now]).Pairwise (· ≤ ·) := by decide
  have hlast : ∀ last ∈ (chargesMade calls).getLast?, s.window < now - last.stamp := by
    intro last hmem
    obtain rfl : (⟨⟨1⟩, ⟨7⟩, 0, (Nanoseconds.ofMillis 30).toMillis⟩ : Charge) = last :=
      Option.some.inj hmem
    decide
  refine ⟨hclock, hlast, by decide +kernel, ?_⟩
  rw [(request_recovers s calls now hclock hlast ⟨1⟩ ⟨7⟩).2]
  exact if_neg (by decide +kernel)

/-- Settings may pass their check although they ask for more than the whole budget. Then no call is
granted, not even before any charge was made. -/
theorem minimum_above_whole_budget :
    let s : Settings := { budget := { userMs := 10, minimumMs := 20 } }
    s.validate.isOk = true ∧ chargesMade [] = [] ∧
    ((empty.after s.budget []).request s.budget 0 ⟨1⟩ ⟨7⟩).1.isOk = false := by
  intro s
  exact ⟨by decide +kernel, rfl, by decide +kernel⟩

end Ledger

end Sightline
