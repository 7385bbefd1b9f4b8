import Mathlib.Tactic
import Sightline.Proofs.Collector.Accounting
import Sightline.Proofs.Query.Parsing
import Sightline.Proofs.Service.Gathering

/-!
# Asking for fewer hits

The number of hits asked for is read like any other option, and it is looked at when everything else
is done: neither what a sweep meets nor which hits are sorted out depends on it, it only says where
the list of hits is cut. So of two queries that differ in it, the one that asks for fewer hits gets
the first of the other's, and both leave the same behind.
-/

namespace Sightline

/-! ### Reading the number -/

namespace Request

variable {start stop : Vec3 Float32} {options : List OptionValue}

/-- Complete pairs are read before what comes after them. -/
lemma withOptions_append (r : Request) (index : ℕ) (hpaired : options.length % 2 = 0)
    (more : List OptionValue) :
    r.withOptions index (options ++ more) =
      (r.withOptions index options).bind (·.withOptions (index + options.length) more) := by
  fun_induction pairs options generalizing r index with
  | case1 key value rest ih =>
    have hrest : rest.length % 2 = 0 := by
      simp only [List.length_cons] at hpaired
      omega
    have hindex : index + (rest.length + 1 + 1) = index + 2 + rest.length := by omega
    rw [List.cons_append, List.cons_append, List.length_cons, List.length_cons, hindex]
    by_cases hsets : Sets key value
    · obtain ⟨known, setting, rfl, rfl⟩ := hsets.exists_known
      rw [withOptions_known, withOptions_known]
      exact ih _ _ hrest
    · obtain ⟨e, hfault⟩ := exists_fault index hsets
      rw [withOptions_fault r hfault, withOptions_fault r hfault]
      rfl
  | case2 options hshort =>
    rcases options with _ | ⟨key, _ | ⟨value, rest⟩⟩
    · rfl
    · cases hpaired
    · exact absurd rfl (hshort key value rest)

/-- Options with a number of hits asked for after them. -/
def asking (options : List OptionValue) (number : Int32) : List OptionValue :=
  options ++ [.int OptionKey.maxHits.number, .int number]

lemma withOptions_asking (r : Request) (hpaired : options.length % 2 = 0) (number : Int32) :
    r.withOptions 0 (asking options number) =
      (r.withOptions 0 options).map (·.withOption number .maxHits) := by
  rw [asking, withOptions_append r 0 hpaired]
  rfl

lemma clamped_withOption_maxHits (r : Request) {number : Int32} (hnumber : 1 ≤ number)
    (ceiling : ℕ) :
    (r.withOption number .maxHits).clamped ceiling =
      { r with maxHits := min number.toInt.toNat (max ceiling 1) } := by
  have hpos : 1 ≤ number.toInt := Int32.le_iff_toInt_le.mp hnumber
  have hsign : ¬ number < 0 := by
    rw [Int32.lt_iff_toInt_lt]
    exact not_lt.mpr (zero_le_one.trans hpos)
  have hcount : max number.toInt.toNat 1 = number.toInt.toNat := by omega
  rw [withOption, if_neg hsign, clamped, hcount]

/-- What cannot be read is the same for every number asked for, and so is all that is read but the
number. -/
lemma parse_asking (start stop : Vec3 Float32) (options : List OptionValue) (ceiling : ℕ) :
    (∃ e, ∀ number, parse start stop (asking options number) ceiling = .error e) ∨
    ∃ r : Request, ∀ number, 1 ≤ number →
      parse start stop (asking options number) ceiling =
        .ok { r with maxHits := min number.toInt.toNat (max ceiling 1) } := by
  let blank : Request := ⟨⟨start, stop⟩, {}, false, false, {}, 1⟩
  have hlength (number : Int32) : (asking options number).length = options.length + 2 :=
    List.length_append
  have hparity : (options.length + 2) % 2 = options.length % 2 := Nat.add_mod_right _ _
  by_cases hfinite : (⟨start, stop⟩ : Segment Float32).isFinite = true
  swap
  · exact Or.inl ⟨.nonFiniteRay, fun number => by simp [parse, hfinite]⟩
  by_cases hpaired : options.length % 2 = 0
  swap
  · exact Or.inl ⟨.oddArity (options.length + 2), fun number => by
      simp [parse, hfinite, hlength, hparity, hpaired]⟩
  have hread (number : Int32) : parse start stop (asking options number) ceiling =
      ((blank.withOptions 0 options).map (·.withOption number .maxHits)).map
        (·.clamped ceiling) := by
    simp only [parse, hfinite, hlength, hparity, hpaired, ← withOptions_asking blank hpaired]
    rfl
  cases hoptions : blank.withOptions 0 options with
  | error e => exact Or.inl ⟨e, fun number => by rw [hread, hoptions]; rfl⟩
  | ok r =>
    refine Or.inr ⟨r, fun number hnumber => ?_⟩
    rw [hread, hoptions, ← clamped_withOption_maxHits r hnumber]
    rfl

end Request

/-! ### Cutting the list -/

lemma Collector.finish_min (c : Collector) {few many : ℕ}
    (h : min few c.limits.maxHits.toNat ≤ min many c.limits.maxHits.toNat) :
    c.finish few =
      .ofList ((c.finish many).toList.take (min few c.limits.maxHits.toNat)) := by
  rw [finish, finish, Outcome.toList_ofList, finalHits, finalHits, List.take_take,
    Nat.min_eq_left h]

/-! ### Casts -/

namespace Service

/-- A cast is refused whatever number of hits is asked for, or it is answered from one collector. -/
lemma exists_collector_castRequest (service : Service) (scene : Scene) (caller : Caller)
    (request : Request) (state : ServiceState) :
    ∃ left : ServiceState,
      (∃ e, ∀ number,
        let answered := service.castRequest scene caller { request with maxHits := number } state
        answered.value = .error e ∧ answered.state = left) ∨
      ∃ collector : Collector, collector.limits = service.settings.limits ∧ ∀ number,
        let answered := service.castRequest scene caller { request with maxHits := number } state
        answered.value = .ok (collector.finish number) ∧ answered.state = left := by
  let pruned := service.pruned state
  let availableMs := pruned.ledger.available service.settings.budget caller.region caller.user
  by_cases hless : availableMs < service.settings.budget.minimumMs
  · refine ⟨pruned, Or.inl ⟨.insufficientTime availableMs, fun number => ?_⟩⟩
    rcases service.castRequestWith_cases service.caster scene caller
        { request with maxHits := number } state with ⟨-, hrefused⟩ | ⟨hnot, -⟩
    · rw [castRequest, hrefused]
      exact ⟨rfl, rfl⟩
    · exact absurd hless hnot
  · obtain ⟨collector, left, hlimits, hrun⟩ :=
      service.exists_collector_run service.caster scene caller.group request pruned
    refine ⟨service.billed caller state.clock.now left, Or.inr ⟨collector, hlimits, fun number => ?_⟩⟩
    obtain ⟨hvalue, hstate⟩ := hrun number
    rcases service.castRequestWith_cases service.caster scene caller
        { request with maxHits := number } state with ⟨hrefused, -⟩ | ⟨-, hran⟩
    · exact absurd hrefused hless
    · rw [castRequest, hran, hvalue, hstate]
      exact ⟨rfl, rfl⟩

/-- Two queries that differ in the number of hits asked for leave the same behind, and are refused for
the same reason or both answered; then the one that asks for fewer hits gets the first hits of the
other's, whatever options come before the number. -/
theorem castRay_fewer (service : Service) (scene : Scene) (caller : Caller)
    (start stop : Vec3 Float32) (options : List OptionValue) (state : ServiceState)
    {few many : Int32} (hfew : 1 ≤ few) (hle : few ≤ many) :
    let cast (number : Int32) :=
      service.castRay scene caller start stop (Request.asking options number) state
    (cast few).state = (cast many).state ∧
    ((∃ e, (cast few).value = .error e ∧ (cast many).value = .error e) ∨
      ∃ outcome outcome' : Outcome,
        (cast few).value = .ok outcome ∧ (cast many).value = .ok outcome' ∧
        outcome = .ofList (outcome'.toList.take
          (min few.toInt.toNat service.settings.limits.maxHits.toNat))) := by
  intro cast
  have hmany : 1 ≤ many := Int32.le_trans hfew hle
  let ceiling := service.settings.limits.maxHits.toNat
  rcases Request.parse_asking start stop options ceiling with ⟨e, hrefused⟩ | ⟨request, hread⟩
  · have hcast (number : Int32) : cast number = ⟨.error (.malformed e), state, []⟩ := by
      simp only [cast, castRay, parseRequest, ceiling, hrefused]
    rw [hcast, hcast]
    exact ⟨rfl, Or.inl ⟨_, rfl, rfl⟩⟩
  · have hcast {number : Int32} (hnumber : 1 ≤ number) : cast number =
        service.castRequest scene caller
          { request with maxHits := min number.toInt.toNat (max ceiling 1) } state := by
      simp only [cast, castRay, parseRequest, ceiling, hread number hnumber]
    rw [hcast hfew, hcast hmany]
    obtain ⟨left, ⟨e, hrefused⟩ | ⟨collector, hlimits, hanswered⟩⟩ :=
      service.exists_collector_castRequest scene caller request state
    · obtain ⟨hvalue, hstate⟩ := hrefused (min few.toInt.toNat (max ceiling 1))
      obtain ⟨hvalue', hstate'⟩ := hrefused (min many.toInt.toNat (max ceiling 1))
      exact ⟨hstate.trans hstate'.symm, Or.inl ⟨e, hvalue, hvalue'⟩⟩
    · obtain ⟨hvalue, hstate⟩ := hanswered (min few.toInt.toNat (max ceiling 1))
      obtain ⟨hvalue', hstate'⟩ := hanswered (min many.toInt.toNat (max ceiling 1))
      refine ⟨hstate.trans hstate'.symm, Or.inr ⟨_, _, hvalue, hvalue', ?_⟩⟩
      -- the ceiling is the limit itself, unless the limit is zero and nothing is reported anyway
      have hceiling : collector.limits.maxHits.toNat = ceiling := by rw [hlimits]
      have hcut : min (min few.toInt.toNat (max ceiling 1)) collector.limits.maxHits.toNat =
          min few.toInt.toNat ceiling := by omega
      have hnumbers : few.toInt.toNat ≤ many.toInt.toNat :=
        Int.toNat_le_toNat (Int32.le_iff_toInt_le.mp hle)
      rw [← hcut]
      exact collector.finish_min (by omega)

/-- Two persons stand in a row, and the ground is not wanted. -/
theorem castRay_fewer_persons :
    let service : Service := ⟨{}, MeshGenerator.boxes⟩
    let person (id : EntityId) (x : Float32) : Avatar Float32 :=
      ⟨id, ⟨x, 0, 0⟩, Rotation.identity, ⟨1, 1, 2⟩⟩
    let scene : Scene := { avatars := [person ⟨1⟩ 0, person ⟨2⟩ 3] }
    let caller : Caller := ⟨⟨1⟩, ⟨1⟩, none⟩
    let cast (number : Int32) := service.castRay scene caller ⟨-2, 0, 0⟩ ⟨6, 0, 0⟩
      (Request.asking [.int 0, .int 8] number) (service.initial .zero)
    (1 : Int32) ≤ 1 ∧ (1 : Int32) ≤ 3 ∧ (cast 1).state = (cast 3).state ∧
    ∃ outcome outcome', (cast 1).value = .ok outcome ∧ (cast 3).value = .ok outcome' ∧
      outcome'.toList.length = 2 ∧ outcome = .ofList (outcome'.toList.take 1) := by
  intro service person scene caller cast
  have hle : (1 : Int32) ≤ 1 ∧ (1 : Int32) ≤ 3 := by decide
  obtain ⟨hstate, hanswered⟩ := service.castRay_fewer scene caller ⟨-2, 0, 0⟩ ⟨6, 0, 0⟩
    [.int 0, .int 8] (service.initial .zero) hle.1 hle.2
  let request : Request :=
    { segment := ⟨⟨-2, 0, 0⟩, ⟨6, 0, 0⟩⟩, reject := ⟨false, false, false, true⟩, maxHits := 3 }
  let source : MeshSource := fun shape _ => MeshGenerator.boxMesh shape
  let gathered := service.collector.extend
    (service.caster.gathered source scene caller.group request)
  have hcast : (cast 3).value = .ok (gathered.finish 3) := by
    have hfinite : request.segment.isFinite = true := by decide +kernel
    have hread : service.parseRequest ⟨-2, 0, 0⟩ ⟨6, 0, 0⟩
        (Request.asking [.int 0, .int 8] 3) = .ok request := by
      simp only [parseRequest, Request.parse, request] at hfinite ⊢
      rw [hfinite]
      rfl
    have hgives : service.generator.Gives source := fun _ _ _ => rfl
    have hok : (service.castRequest scene caller request (service.initial .zero)).value.isOk =
        true := by
      decide +kernel
    have hlong : service.isZeroLength request = false := by decide +kernel
    have hvalue := castRequestWith_value_of_isOk hgives (Cache.agrees_empty _ _) hok
    rw [outcome, hlong] at hvalue
    simp only [cast, castRay, hread]
    exact hvalue.trans (congrArg _ (gathered.finish_dedup 3))
  rcases hanswered with ⟨e, -, hrefused⟩ | ⟨outcome, outcome', hvalue, hvalue', hfirst⟩
  · cases hcast.symm.trans hrefused
  · refine ⟨hle.1, hle.2, hstate, outcome, outcome', hvalue, hvalue', ?_, hfirst⟩
    obtain rfl : gathered.finish 3 = outcome' := Except.ok.inj (hcast.symm.trans hvalue')
    have hsorted : gathered.sorted = gathered.hits :=
      List.mergeSort_of_pairwise (by decide +kernel)
    rw [Collector.finish, Outcome.toList_ofList, Collector.finalHits, Collector.dedup, hsorted]
    decide +kernel

end Service

end Sightline
