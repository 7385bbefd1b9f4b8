import Mathlib.Tactic
import Sightline.Proofs.Budget.Window
import Sightline.Proofs.Collector.Selection
import Sightline.Proofs.Service.SweepInvariant
import Sightline.Service.Basic

/-!
# What a cast comes to

A cast that is allowed is a run followed by a charge. A run hands the ledger on as it is, and the
hits it returns are among those that its sweep gathered.
-/

namespace Sightline

/-- The charge for a cast that was asked for and completed at readings of the clock. -/
def Caller.bill (caller : Caller) (asked completed : Nanoseconds) : Charge :=
  ⟨caller.region, caller.user, completed, Nanoseconds.toMillis (completed - asked)⟩

/-- The limits are set when a collector is made. -/
lemma Caster.keeps_limits (c : Caster) (P : Owner → Prop) (limits : HitLimits) :
    c.Keeps P fun s => s.collector.limits = limits where
  report := fun _ h => h
  count := fun _ h => h
  fetch := fun _ _ h => h
  collect := fun _ h => h

namespace Service

variable {service : Service} {caster : Caster} {scene : Scene} {own : Option EntityId}
  {request : Request} {state : ServiceState}

/-- The sweep that a run begins with. -/
def startSweep (service : Service) (state : ServiceState) : Sweep where
  cache := state.cache
  clock := state.clock
  collector := service.collector

/-- The state with the charges dropped that are too old to count. -/
def pruned (service : Service) (state : ServiceState) : ServiceState :=
  { state with ledger := state.ledger.prune service.settings.budget.window state.clock.now }

/-- The state with the bill of a caller added to the charges that count. -/
def billed (service : Service) (caller : Caller) (asked : Nanoseconds) (state : ServiceState) :
    ServiceState :=
  { state with
    ledger := ⟨(service.pruned state).ledger.charges ++ [caller.bill asked state.clock.now]⟩ }

/-! ### Runs -/

@[simp] lemma run_ledger :
    (service.run caster scene own request state).state.ledger = state.ledger := by
  unfold run
  split <;> rfl

/-- The clock after a run is the one it began with or that of a sweep. -/
lemma run_clock (P : Clock → Prop) (hstart : P state.clock)
    (hsweep : P (caster.sweep scene request own (service.startSweep state)).clock) :
    P (service.run caster scene own request state).state.clock := by
  unfold run
  split
  · exact hstart
  · exact hsweep

lemma mem_sweep_of_mem_run {hit : Hit}
    (h : hit ∈ (service.run caster scene own request state).value.toList) :
    hit ∈ (caster.sweep scene request own (service.startSweep state)).collector.hits := by
  unfold run at h
  split at h
  · exact absurd h List.not_mem_nil
  · replace h := Outcome.toList_ofList _ ▸ h
    have hdistinct := (Collector.finalHits_subperm _ _).subset h
    exact (Collector.dedup_hits_subperm _).subset hdistinct

/-- A run collects hits and leaves a state behind, and only then is the number of hits asked for
looked at. -/
lemma exists_collector_run (service : Service) (caster : Caster) (scene : Scene)
    (own : Option EntityId) (request : Request) (state : ServiceState) :
    ∃ (collector : Collector) (left : ServiceState),
      collector.limits = service.settings.limits ∧
      ∀ number,
        let ran := service.run caster scene own { request with maxHits := number } state
        ran.value = collector.finish number ∧ ran.state = left := by
  cases hzero : service.isZeroLength request with
  | true =>
    refine ⟨service.collector, state, rfl, fun number => ?_⟩
    have hnothing : service.collector.finish number = .noHit :=
      (Outcome.ofList_eq_noHit_iff _).mpr ((Collector.finalHits_eq_nil_iff _ _).mpr (Or.inl rfl))
    have hlength : service.isZeroLength { request with maxHits := number } = true := hzero
    rw [hnothing, run, if_pos hlength]
    exact ⟨rfl, rfl⟩
  | false =>
    let sweep := caster.sweep scene request own (service.startSweep state)
    have hlimits : sweep.collector.limits = service.settings.limits :=
      (caster.keeps_limits scene.Holds _).sweep request own rfl
    refine ⟨sweep.collector.dedup, { state with cache := sweep.cache, clock := sweep.clock },
      hlimits, fun number => ?_⟩
    have hlength : service.isZeroLength { request with maxHits := number } = false := hzero
    rw [run, hlength]
    exact ⟨rfl, rfl⟩

/-! ### Casts -/

/-- A cast is refused for what is left of the charges that count, or it is run and billed. -/
lemma castRequestWith_cases (service : Service) (caster : Caster) (scene : Scene)
    (caller : Caller) (request : Request) (state : ServiceState) :
    let pruned := service.pruned state
    let availableMs := pruned.ledger.available service.settings.budget caller.region caller.user
    let ran := service.run caster scene caller.group request pruned
    (availableMs < service.settings.budget.minimumMs ∧
      service.castRequestWith caster scene caller request state =
        ⟨.error (.insufficientTime availableMs), pruned,
          [.callRefused caller.user caller.region availableMs]⟩) ∨
    (¬ availableMs < service.settings.budget.minimumMs ∧
      service.castRequestWith caster scene caller request state =
        ⟨.ok ran.value, service.billed caller state.clock.now ran.state, ran.events⟩) := by
  intro pruned availableMs ran
  have hrequest : state.ledger.request service.settings.budget state.clock.now caller.region
        caller.user =
      (if availableMs < service.settings.budget.minimumMs then .error ⟨availableMs⟩
        else .ok ⟨caller.region, caller.user, state.clock.now, availableMs⟩, pruned.ledger) :=
    Ledger.request_eq _ _ _ _ _
  by_cases hless : availableMs < service.settings.budget.minimumMs
  · rw [if_pos hless] at hrequest
    refine Or.inl ⟨hless, ?_⟩
    simp only [castRequestWith, hrequest]
    rfl
  · rw [if_neg hless] at hrequest
    refine Or.inr ⟨hless, ?_⟩
    simp only [castRequestWith, hrequest]
    rfl

lemma castRequestWith_value (service : Service) (caster : Caster) (scene : Scene)
    (caller : Caller) (request : Request) (state : ServiceState) :
    let pruned := service.pruned state
    let availableMs := pruned.ledger.available service.settings.budget caller.region caller.user
    (service.castRequestWith caster scene caller request state).value =
      if availableMs < service.settings.budget.minimumMs then .error (.insufficientTime availableMs)
      else .ok (service.run caster scene caller.group request pruned).value := by
  intro pruned availableMs
  rcases service.castRequestWith_cases caster scene caller request state with
    ⟨hless, hrefused⟩ | ⟨hless, hran⟩
  · rw [hrefused, if_pos hless]
  · rw [hran, if_neg hless]

end Service

end Sightline
