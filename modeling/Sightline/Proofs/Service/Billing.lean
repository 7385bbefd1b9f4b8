import Mathlib.Tactic
import Sightline.Proofs.Service.Casting

/-!
# What casts are billed for

A cast that is answered is charged once, at the end; one that is not answered is not charged, and
one that could not even be read leaves no trace. So the charges that were ever made are the bills of
the casts that were answered, in the order of the casts.
-/

namespace Sightline

/-- A ray that somebody casts through a scene. -/
structure RayQuery where
  scene : Scene
  caller : Caller
  start : Vec3 Float32
  stop : Vec3 Float32
  options : List OptionValue

/-- A query and what came of it. -/
structure CastRecord where
  query : RayQuery
  /-- The reading of the clock when the query was made. -/
  asked : Nanoseconds
  answered : Answered (Except CastError Outcome)

/-- What is billed for a query: nothing, unless it was answered. -/
def CastRecord.bill? (record : CastRecord) : Option Charge :=
  match record.answered.value with
  | .ok _ => some (record.query.caller.bill record.asked record.answered.state.clock.now)
  | .error _ => none

lemma CastRecord.bills_concat (records : List CastRecord) (record : CastRecord) :
    (records ++ [record]).filterMap bill? = records.filterMap bill? ++ record.bill?.toList := by
  rw [List.filterMap_append]
  cases hbill : record.bill? <;> simp [hbill]

/-! ### The clock -/

/-- A generator that never turns the clock back. -/
def MeshGenerator.Forward (generator : MeshGenerator) : Prop :=
  ∀ shape detail clock, clock.now ≤ (generator shape detail clock).2.now

/-- Fetching a mesh leaves the clock alone, or the generator has moved it. -/
lemma Sweep.fetched_clock (lib : MeshLibrary) (shape : Shape) (cls : DetailClass) (s : Sweep) :
    (s.fetched lib shape cls).clock = s.clock ∨
    (s.fetched lib shape cls).clock =
      (lib.generator shape (lib.detail.forClass cls) s.clock).2 := by
  simp only [fetched, MeshLibrary.meshFor, Cache.fetch]
  rcases s.cache.lookup ⟨shape, lib.detail.forClass cls⟩ with ⟨_ | value, cache⟩
  · cases hanswer : (lib.generator shape (lib.detail.forClass cls) s.clock).1 with
    | error e => exact Or.inr rfl
    | ok mesh => exact Or.inr rfl
  · exact Or.inl rfl

lemma Caster.keeps_clock_le {c : Caster} (hforward : MeshGenerator.Forward c.library.generator)
    (P : Owner → Prop) (t : Nanoseconds) : c.Keeps P fun s => t ≤ s.clock.now where
  report := fun _ h => h
  count := fun _ h => h
  fetch := by
    intro s shape cls h
    rcases s.fetched_clock c.library shape cls with hsame | hmoved
    · rw [hsame]
      exact h
    · rw [hmoved]
      exact h.trans (hforward shape _ s.clock)
  collect := fun _ h => h

namespace Service

variable {service : Service} {query : RayQuery} {state : ServiceState}

/-- What comes of a query. -/
def answer (service : Service) (query : RayQuery) (state : ServiceState) :
    Answered (Except CastError Outcome) :=
  service.castRay query.scene query.caller query.start query.stop query.options state

/-- What a query costs those who make it, and what it changes. -/
structure Accounts (service : Service) (query : RayQuery) (state : ServiceState) : Prop where
  /-- A query that cannot be read is malformed, whatever is left of the budget. -/
  unread : ∀ e, service.parseRequest query.start query.stop query.options = .error e →
    (service.answer query state).value = .error (.malformed e)
  /-- A malformed query changes nothing. -/
  malformed : ∀ e, (service.answer query state).value = .error (.malformed e) →
    (service.answer query state).state = state
  /-- A query that is refused changes nothing but that old charges are shed. -/
  refused : ∀ ms, (service.answer query state).value = .error (.insufficientTime ms) →
    (service.answer query state).state.cache = state.cache ∧
    (service.answer query state).state.clock = state.clock ∧
    state.ledger.Sheds service.settings.budget.window state.clock.now
      (service.answer query state).state.ledger
  /-- A query that is answered is charged at its end, and old charges are shed. -/
  answered : ∀ outcome, (service.answer query state).value = .ok outcome →
    state.clock.now ≤ (service.answer query state).state.clock.now →
    ∃ kept : Ledger,
      state.ledger.Sheds service.settings.budget.window
        (service.answer query state).state.clock.now kept ∧
      (service.answer query state).state.ledger.charges = kept.charges ++
        [query.caller.bill state.clock.now (service.answer query state).state.clock.now]

/-! ### One query -/

/-- A query cannot be read, is refused, or is run and billed. -/
lemma answer_cases (service : Service) (query : RayQuery) (state : ServiceState) :
    (∃ e, service.parseRequest query.start query.stop query.options = .error e ∧
      service.answer query state = ⟨.error (.malformed e), state, []⟩) ∨
    (∃ request ms events,
      service.parseRequest query.start query.stop query.options = .ok request ∧
      service.answer query state =
        ⟨.error (.insufficientTime ms), service.pruned state, events⟩) ∨
    (∃ request ran,
      service.parseRequest query.start query.stop query.options = .ok request ∧
      service.run service.caster query.scene query.caller.group request
        (service.pruned state) = ran ∧
      service.answer query state =
        ⟨.ok ran.value, service.billed query.caller state.clock.now ran.state, ran.events⟩) := by
  cases hparse : service.parseRequest query.start query.stop query.options with
  | error e => exact Or.inl ⟨e, rfl, by simp only [answer, castRay, hparse]⟩
  | ok request =>
    have hanswer : service.answer query state =
        service.castRequestWith service.caster query.scene query.caller request state := by
      simp only [answer, castRay, castRequest, hparse]
    rcases service.castRequestWith_cases service.caster query.scene query.caller request state with
      ⟨-, hrefused⟩ | ⟨-, hran⟩
    · exact Or.inr (Or.inl ⟨request, _, _, rfl, hanswer.trans hrefused⟩)
    · exact Or.inr (Or.inr ⟨request, _, rfl, rfl, hanswer.trans hran⟩)

/-- Every query is accounted for, whatever the state it is made in. -/
theorem accounts (service : Service) (query : RayQuery) (state : ServiceState) :
    service.Accounts query state := by
  rcases service.answer_cases query state with
    ⟨e, hparse, hanswer⟩ | ⟨request, ms, events, hparse, hanswer⟩ |
      ⟨request, ran, hparse, hran, hanswer⟩
  · constructor <;> simp [hparse, hanswer]
  · constructor <;> simp [hparse, hanswer, pruned, Ledger.sheds_prune]
  · constructor <;> simp only [hparse, hanswer, reduceCtorEq, false_implies, implies_true]
    intro _ _ hclock
    have hledger : ran.state.ledger = (service.pruned state).ledger := by rw [← hran, run_ledger]
    have hsheds : state.ledger.Sheds service.settings.budget.window ran.state.clock.now
        ran.state.ledger := hledger ▸ (state.ledger.sheds_prune _ _).mono hclock
    exact ⟨_, hsheds.trans (Ledger.sheds_prune _ _ _), rfl⟩

/-- A query does not turn the clock back if the generator does not. -/
theorem clock_le_answer (hforward : MeshGenerator.Forward service.generator) (query : RayQuery)
    (state : ServiceState) :
    state.clock.now ≤ (service.answer query state).state.clock.now := by
  rcases service.answer_cases query state with
    ⟨e, -, hanswer⟩ | ⟨request, ms, events, -, hanswer⟩ | ⟨request, ran, -, hran, hanswer⟩
  · rw [hanswer]
  · rw [hanswer, pruned]
  · rw [hanswer, ← hran]
    exact run_clock (state.clock.now ≤ ·.now) le_rfl
      ((Caster.keeps_clock_le hforward _ _).sweep request query.caller.group le_rfl)

/-- A query makes calls on the ledger, and its bill is what they charge. -/
lemma exists_calls_answer (query : RayQuery)
    (hclock : state.clock.now ≤ (service.answer query state).state.clock.now) :
    ∃ calls : List (Nanoseconds × BudgetCall),
      (service.answer query state).state.ledger =
        state.ledger.after service.settings.budget calls ∧
      (state.clock.now :: (calls.map Prod.fst ++
        [(service.answer query state).state.clock.now])).Pairwise (· ≤ ·) ∧
      chargesMade calls =
        (CastRecord.bill? ⟨query, state.clock.now, service.answer query state⟩).toList := by
  let asked := state.clock.now
  let region := query.caller.region
  let user := query.caller.user
  rcases service.answer_cases query state with
    ⟨e, -, hanswer⟩ | ⟨request, ms, events, -, hanswer⟩ | ⟨request, ran, -, hran, hanswer⟩
  · rw [hanswer]
    exact ⟨[], rfl, by simp, rfl⟩
  · rw [hanswer]
    refine ⟨[(asked, .request region user)], ?_, ?_, rfl⟩
    · simp [Ledger.afterCall_eq, BudgetCall.made?, asked, pruned]
    · simp [asked, pruned]
  · rw [hanswer] at hclock ⊢
    let now := ran.state.clock.now
    let grant : Grant := ⟨region, user, asked,
      (service.pruned state).ledger.available service.settings.budget region user⟩
    have hrequest : state.ledger.afterCall service.settings.budget asked (.request region user) =
        ran.state.ledger := by
      rw [← hran, run_ledger, Ledger.afterCall, Ledger.request_eq]
      rfl
    refine ⟨[(asked, .request region user), (now, .charge grant (now - asked))], ?_, ?_, rfl⟩
    · rw [Ledger.after_cons, hrequest]
      rfl
    · simpa [asked, now, billed] using hclock

/-! ### Runs -/

/-- The queries made of a service so far, and the state they left it in. Time may pass between two
queries, and no reading of the clock is less than one before. -/
inductive Run (service : Service) : List CastRecord → ServiceState → Prop
  | start (clock : Clock) : Run service [] (service.initial clock)
  | wait {records : List CastRecord} {state : ServiceState} (clock : Clock)
      (run : Run service records state) (later : state.clock.now ≤ clock.now) :
      Run service records { state with clock := clock }
  | cast {records : List CastRecord} {state : ServiceState} (query : RayQuery)
      (run : Run service records state)
      (later : state.clock.now ≤ (service.answer query state).state.clock.now) :
      Run service (records ++ [⟨query, state.clock.now, service.answer query state⟩])
        (service.answer query state).state

/-- A run is a run of calls on the ledger that charge what is billed. -/
lemma Run.exists_calls {records : List CastRecord} (h : service.Run records state) :
    ∃ calls : List (Nanoseconds × BudgetCall),
      state.ledger = Ledger.empty.after service.settings.budget calls ∧
      (calls.map Prod.fst ++ [state.clock.now]).Pairwise (· ≤ ·) ∧
      chargesMade calls = records.filterMap CastRecord.bill? := by
  induction h with
  | start clock => exact ⟨[], rfl, by simp, rfl⟩
  | wait clock _ later ih =>
    obtain ⟨calls, hledger, hclock, hbills⟩ := ih
    refine ⟨calls, hledger, readings_append hclock ?_, hbills⟩
    simpa using later
  | @cast records state query _ later ih =>
    obtain ⟨calls, hledger, hclock, hbills⟩ := ih
    obtain ⟨calls', hledger', hclock', hbills'⟩ := exists_calls_answer query later
    refine ⟨calls ++ calls', ?_, ?_, ?_⟩
    · rw [hledger', hledger, Ledger.after_append]
    · rw [List.map_append, List.append_assoc]
      exact readings_append hclock hclock'
    · rw [chargesMade_append, CastRecord.bills_concat, hbills, hbills']

/-- Every query is accounted for. Over a run, what was ever charged are the bills of the queries that
were answered, in order, and the ledger is what is left of them. -/
theorem charges_bills (service : Service) :
    (∀ query state, service.Accounts query state) ∧
    ∀ records state, service.Run records state →
      (∃ calls : List (Nanoseconds × BudgetCall),
        state.ledger = Ledger.empty.after service.settings.budget calls ∧
        (calls.map Prod.fst ++ [state.clock.now]).Pairwise (· ≤ ·) ∧
        chargesMade calls = records.filterMap CastRecord.bill?) ∧
      state.ledger.Remembers service.settings.budget.window state.clock.now
        (records.filterMap CastRecord.bill?) := by
  refine ⟨service.accounts, fun records state hrun => ?_⟩
  obtain ⟨calls, hledger, hclock, hbills⟩ := hrun.exists_calls
  refine ⟨⟨calls, hledger, hclock, hbills⟩, ?_⟩
  rw [hledger, ← hbills]
  exact Ledger.remembers_after_empty hclock

/-- A ray without length is billed too. -/
theorem charges_bills_zeroLength :
    let service : Service := ⟨{}, MeshGenerator.boxes⟩
    let query : RayQuery := ⟨{}, ⟨⟨1⟩, ⟨7⟩, none⟩, Vec3.zero, Vec3.zero, []⟩
    let answered := service.answer query (service.initial .zero)
    let records : List CastRecord := [⟨query, 0, answered⟩]
    service.Run records answered.state ∧
    answered.state.ledger.size = 1 ∧
    answered.state.ledger.Remembers service.settings.budget.window answered.state.clock.now
      (records.filterMap CastRecord.bill?) := by
  intro service query answered records
  have hforward : MeshGenerator.Forward service.generator := fun _ _ _ => le_rfl
  have hrun : service.Run records answered.state :=
    Run.cast query (Run.start .zero) (clock_le_answer hforward query _)
  exact ⟨hrun, by decide +kernel, ((charges_bills service).2 records answered.state hrun).2⟩

end Service

end Sightline
