import Mathlib.Tactic
import Sightline.Proofs.Collector.Report
import Sightline.Proofs.Query.Decoding
import Sightline.Proofs.Service.Billing

/-!
# Flat replies

A query can be answered with a flat list. The list is what the result of the query is rendered to,
and its last entry tells how the query went: it is the number of hits, which never grows so large
that it would not fit.
-/

namespace Sightline

/-! ### How many hits can be asked for -/

namespace Request

lemma withOption_maxHits_lt {r : Request} (h : r.maxHits < 2 ^ 31) (value : Int32)
    (key : OptionKey) : (r.withOption value key).maxHits < 2 ^ 31 := by
  cases key with
  | maxHits =>
    have hvalue := value.toInt_lt
    simp only [withOption]
    split <;> omega
  | rejectTypes => exact h
  | detectPhantom => exact h
  | dataFlags => exact h
  | detectAttachments => exact h

lemma withOptions_maxHits_lt {r r' : Request} {index : ℕ} {options : List OptionValue}
    (h : r.maxHits < 2 ^ 31) (hread : r.withOptions index options = .ok r') :
    r'.maxHits < 2 ^ 31 := by
  fun_induction withOptions r index options with
  | case1 r index rest key value known hknown ih =>
    exact ih (withOption_maxHits_lt h value known) hread
  | case2 => cases hread
  | case3 => cases hread
  | case4 => cases hread
  | case5 options r index hshort =>
    cases hread
    exact h

/-- The number of hits that is asked for fits a status. -/
lemma parse_maxHits_lt {start stop : Vec3 Float32} {options : List OptionValue} {ceiling : ℕ}
    {request : Request} (h : parse start stop options ceiling = .ok request) :
    request.maxHits < 2 ^ 31 := by
  simp only [parse] at h
  split at h
  · cases h
  · split at h
    · cases h
    · cases hread : withOptions ⟨⟨start, stop⟩, {}, false, false, {}, 1⟩ 0 options with
      | error e => simp [hread, Except.map] at h
      | ok read =>
        have hlt := withOptions_maxHits_lt (by norm_num) hread
        obtain rfl : read.clamped ceiling = request := by simpa [hread, Except.map] using h
        simp only [clamped]
        omega

end Request

/-! ### What a reply tells -/

/-- The status of a result fits if it has fewer hits than that. -/
lemma Outcome.toInt_status_code {outcome : Outcome} (h : outcome.toList.length < 2 ^ 31) :
    outcome.status.code.toInt = outcome.toList.length := by
  cases outcome with
  | noHit => rfl
  | hits list =>
    have hmin : min list.length 0x7fffffff = list.length := by
      simp only [toList] at h
      omega
    simp only [status, Status.code, hmin]
    exact Int32.toInt_ofNat_of_lt h

lemma CastError.toInt_status_code_le (e : CastError) : e.status.code.toInt ≤ 0 := by
  cases e with
  | malformed error => exact (by decide : Status.malformed.code.toInt ≤ 0)
  | insufficientTime availableMs => exact (by decide : Status.insufficientTime.code.toInt ≤ 0)

namespace Reply

/-- A list is what the result of a query is rendered to. -/
structure Renders (flags : DataFlags) (result : Except CastError Outcome)
    (reply : List OptionValue) : Prop where
  answered : ∀ outcome, result = .ok outcome →
    reply = format flags outcome.toList outcome.status
  malformed : ∀ e, result = .error (.malformed e) → reply = [.int (-1)]
  refused : ∀ availableMs, result = .error (.insufficientTime availableMs) → reply = [.int (-3)]

/-- The status at the end of a reply agrees with the result and with what comes before it. -/
structure Counts (flags : DataFlags) (result : Except CastError Outcome)
    (strides : List (List OptionValue)) (status : Int32) : Prop where
  /-- The status is positive when something was hit. -/
  positive_iff : 0 < status ↔ ∃ hits, result = .ok (.hits hits)
  /-- The status is the number of hits. -/
  number : ∀ outcome, result = .ok outcome → status.toInt = outcome.toList.length
  /-- There is one stride for each hit, and none if nothing was hit. -/
  strides_length : strides.length = status.toInt.toNat
  /-- All strides have the length that is asked for. -/
  stride_length : ∀ stride ∈ strides,
    stride.length = 2 + flags.linkNumber.toNat + flags.normal.toNat

/-- The reply to a query. -/
def ofResult (flags : DataFlags) : Except CastError Outcome → List OptionValue
  | .ok outcome => format flags outcome.toList outcome.status
  | .error e => format flags [] e.status

lemma renders_ofResult (flags : DataFlags) (result : Except CastError Outcome) :
    Renders flags result (ofResult flags result) := by
  constructor
  · rintro outcome rfl
    rfl
  · rintro e rfl
    rfl
  · rintro availableMs rfl
    rfl

lemma exists_counts_ofResult (flags : DataFlags) {result : Except CastError Outcome}
    (h : ∀ outcome, result = .ok outcome →
      outcome ≠ .hits [] ∧ outcome.toList.length < 2 ^ 31) :
    ∃ strides status, ofResult flags result = strides.flatten ++ [.int status] ∧
      Counts flags result strides status := by
  cases result with
  | error e =>
    have hcode := e.toInt_status_code_le
    refine ⟨[], e.status.code, rfl, ?_, ?_, ?_, ?_⟩
    · simpa [Int32.lt_iff_toInt_lt] using hcode
    · simp
    · simp [Int.toNat_of_nonpos hcode]
    · simp
  | ok outcome =>
    obtain ⟨hne, hlt⟩ := h outcome rfl
    have hcode := Outcome.toInt_status_code hlt
    refine ⟨outcome.toList.map (stride flags), outcome.status.code, ?_, ?_, ?_, ?_, ?_⟩
    · rw [ofResult, format, List.flatMap_def]
    · rw [Int32.lt_iff_toInt_lt, hcode]
      cases outcome with
      | noHit => simp [Outcome.toList]
      | hits list =>
        have hlist : list ≠ [] := fun hnil => hne (congrArg Outcome.hits hnil)
        simpa [Outcome.toList, List.length_pos_iff] using hlist
    · rintro _ ⟨⟩
      exact hcode
    · rw [hcode, List.length_map, Int.toNat_natCast]
    · intro s hs
      obtain ⟨hit, -, rfl⟩ := List.mem_map.mp hs
      exact length_stride flags hit

end Reply

/-! ### Casts -/

namespace Service

/-- Hits are only reported if there are any, and not more than fit a status. -/
lemma answer_bounded {service : Service} {query : RayQuery} {state : ServiceState}
    {outcome : Outcome} (h : (service.answer query state).value = .ok outcome) :
    outcome ≠ .hits [] ∧ outcome.toList.length < 2 ^ 31 := by
  rcases service.answer_cases query state with
    ⟨e, -, hanswer⟩ | ⟨request, ms, events, -, hanswer⟩ | ⟨request, ran, hparse, hran, hanswer⟩
  · simp [hanswer] at h
  · simp [hanswer] at h
  · obtain rfl : ran.value = outcome := by simpa [hanswer] using h
    rw [← hran]
    obtain ⟨collector, _, _, hcollected⟩ := service.exists_collector_run service.caster query.scene
      query.caller.group request (service.pruned state)
    -- what is asked for bounds the report, also where the settings would allow more
    have hreports := collector.finish_reports request.maxHits
    rw [(hcollected request.maxHits).1]
    exact ⟨hreports.hits_ne_nil, (hreports.length_le.trans (min_le_left _ _)).trans_lt
      (Request.parse_maxHits_lt hparse)⟩

/-- What is wanted to know about each hit; it does not matter if the query cannot be read. -/
def flagsOf (service : Service) (start stop : Vec3 Float32) (options : List OptionValue) :
    DataFlags :=
  match service.parseRequest start stop options with
  | .ok request => request.flags
  | .error _ => {}

/-- A flat reply is made from what the query comes to, and changes nothing else. -/
lemma castRayValues_eq (service : Service) (scene : Scene) (caller : Caller)
    (start stop : Vec3 Float32) (options : List OptionValue) (state : ServiceState) :
    let answered := service.castRay scene caller start stop options state
    let replied := service.castRayValues scene caller start stop options state
    replied.value = Reply.ofResult (service.flagsOf start stop options) answered.value ∧
      replied.state = answered.state := by
  unfold castRay castRayValues flagsOf
  cases service.parseRequest start stop options with
  | error e => exact ⟨rfl, rfl⟩
  | ok request =>
    refine ⟨?_, rfl⟩
    cases hvalue : (service.castRequest scene caller request state).value with
    | error e => simp [Answered.map, Reply.ofResult, hvalue]
    | ok outcome => simp [Answered.map, Reply.ofResult, hvalue]

/-- A flat reply is what the result of the query is rendered to, and leaves behind what the query
leaves behind. It ends with a status that tells how many strides come before it. -/
theorem castRayValues_renders (service : Service) (scene : Scene) (caller : Caller)
    (start stop : Vec3 Float32) (options : List OptionValue) (state : ServiceState) :
    let answered := service.castRay scene caller start stop options state
    let replied := service.castRayValues scene caller start stop options state
    replied.state = answered.state ∧
    ∃ flags : DataFlags,
      (∀ request, service.parseRequest start stop options = .ok request → flags = request.flags) ∧
      Reply.Renders flags answered.value replied.value ∧
      ∃ strides status, replied.value = strides.flatten ++ [.int status] ∧
        Reply.Counts flags answered.value strides status := by
  intro answered replied
  obtain ⟨hvalue, hstate⟩ := service.castRayValues_eq scene caller start stop options state
  let query : RayQuery := ⟨scene, caller, start, stop, options⟩
  have hbounded : ∀ outcome, (service.answer query state).value = .ok outcome →
      outcome ≠ .hits [] ∧ outcome.toList.length < 2 ^ 31 := fun _ h => answer_bounded h
  refine ⟨hstate, service.flagsOf start stop options, ?_, ?_, ?_⟩
  · intro request hparse
    rw [flagsOf, hparse]
  · exact hvalue ▸ Reply.renders_ofResult _ _
  · exact hvalue ▸ Reply.exists_counts_ofResult _ hbounded

end Service

end Sightline
