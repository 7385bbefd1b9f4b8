import Mathlib.Tactic
import Sightline.Proofs.Mesh.Steps

/-!
# The first value stored stays

Between the look-up of a key and the storing of what was generated for it, anything may happen to a
cache. Whatever it is, a request hands out the value that is held when it comes to its end, and a
value that is held stays the same until its key is dropped.
-/

namespace Sightline

variable {K V ε : Type} [DecidableEq K]

namespace Cache

variable {c c' : Cache K V} {key : K} {value : V} {step : CacheStep K V ε}
  {steps : List (CacheStep K V ε)}

/-! ### One key -/

/-- What is held under a key stays, unless the key is dropped, or was not held and is now stored. -/
lemma Moves.get?_cases (h : Moves c step c') (key : K) :
    c'.get? key = c.get? key ∨
    (step.evicted? = some key ∧ c'.get? key = none) ∨
    ∃ value evicted, step = .stored key value evicted ∧ c.get? key = none ∧
      c'.get? key = some value := by
  cases h with
  | lacked => exact .inl rfl
  | looked => exact .inl (get?_touch c key _)
  | found => exact .inl (get?_touch c key _)
  | missed => exact .inl rfl
  | failed => exact .inl rfl
  | overtaken => exact .inl (get?_touch c key _)
  | @stored key' value hlacks =>
    have hinsert := get?_insert (get?_makeRoom_of_lacks hlacks) value key
    by_cases hkey : key = key'
    · subst hkey
      rw [if_pos rfl] at hinsert
      exact .inr (.inr ⟨value, _, rfl, hlacks, hinsert⟩)
    · rw [if_neg hkey, get?_makeRoom] at hinsert
      split_ifs at hinsert with hevicted
      · exact .inr (.inl ⟨hevicted, hinsert⟩)
      · exact .inl hinsert

/-- What is handed out is held. -/
lemma Moves.get?_of_given (h : Moves c step c') (hgiven : step.given? = some (key, value)) :
    c'.get? key = some value := by
  cases h with
  | lacked => cases hgiven
  | looked hget =>
    cases hgiven
    rw [get?_touch, hget]
  | found hget =>
    cases hgiven
    exact (get?_touch _ _ _).trans hget
  | missed => cases hgiven
  | failed => cases hgiven
  | overtaken hget =>
    cases hgiven
    rw [get?_touch, hget]
  | stored hlacks =>
    cases hgiven
    rw [get?_insert (get?_makeRoom_of_lacks hlacks), if_pos rfl]

/-- A value that is held is the one handed out next. -/
lemma Moves.eq_of_given (h : Moves c step c') {first : V} (hget : c.get? key = some first)
    (hgiven : step.given? = some (key, value)) : value = first := by
  have hheld := h.get?_of_given hgiven
  rcases h.get?_cases key with hsame | ⟨_, hnone⟩ | ⟨_, _, _, hlacks, _⟩
  · exact Option.some.inj (hheld.symm.trans (hsame.trans hget))
  · rw [hheld] at hnone
    cases hnone
  · rw [hget] at hlacks
    cases hlacks

/-! ### One key in a run -/

/-- What is held was held before or has been stored since. -/
lemma Trace.get?_origin (h : Trace c steps c') (hget : c'.get? key = some value) :
    c.get? key = some value ∨ ∃ evicted, .stored key value evicted ∈ steps := by
  induction h with
  | nil => exact .inl hget
  | cons hmoves _ ih =>
    rcases ih hget with hget | ⟨evicted, hmem⟩
    · rcases hmoves.get?_cases key with hsame | ⟨_, hnone⟩ | ⟨value', evicted, rfl, _, hheld⟩
      · exact .inl (hsame ▸ hget)
      · rw [hget] at hnone
        cases hnone
      · obtain rfl := Option.some.inj (hget.symm.trans hheld)
        exact .inr ⟨evicted, List.mem_cons_self⟩
    · exact .inr ⟨evicted, List.mem_cons_of_mem _ hmem⟩

/-- What is held stays the same as long as its key is not dropped. -/
lemma Trace.get?_of_not_evicted (h : Trace c steps c') (hget : c.get? key = some value)
    (hkept : ∀ step ∈ steps, step.evicted? ≠ some key) : c'.get? key = some value := by
  induction h with
  | nil => exact hget
  | cons hmoves _ ih =>
    refine ih ?_ fun step hstep => hkept step (List.mem_cons_of_mem _ hstep)
    rcases hmoves.get?_cases key with hsame | ⟨hevicted, _⟩ | ⟨_, _, _, hlacks, _⟩
    · exact hsame.trans hget
    · exact absurd hevicted (hkept _ List.mem_cons_self)
    · rw [hget] at hlacks
      cases hlacks

/-- What is held stays the same as long as something is held. -/
lemma Trace.get?_of_held (h : Trace c steps c') (hget : c.get? key = some value)
    (hheld : ∀ early late c'', steps = early ++ late → Trace c early c'' → c''.get? key ≠ none) :
    c'.get? key = some value := by
  induction h with
  | nil => exact hget
  | @cons c₁ c₂ _ step steps hmoves _ ih =>
    have hstill : c₂.get? key ≠ none := hheld [step] steps c₂ rfl hmoves.trace
    refine ih ?_ fun early late c'' hsteps htrace =>
      hheld (step :: early) late c'' (by rw [hsteps, List.cons_append]) (.cons hmoves htrace)
    rcases hmoves.get?_cases key with hsame | ⟨_, hnone⟩ | ⟨_, _, _, hlacks, _⟩
    · exact hsame.trans hget
    · exact absurd hnone hstill
    · rw [hget] at hlacks
      cases hlacks

end Cache

/-! ### The calls behind the steps -/

namespace CacheCall

/-- A call is made by one of these calls or inside one. -/
inductive Within (call : CacheCall K V ε) : List (CacheCall K V ε) → Prop
  | here {rest} : Within call (call :: rest)
  | inside {key nested reply rest} (h : Within call nested) :
      Within call (.fetch key nested reply :: rest)
  | past {other rest} (h : Within call rest) : Within call (other :: rest)

omit [DecidableEq K] in
lemma Within.append {call : CacheCall K V ε} {calls : List (CacheCall K V ε)}
    (h : Within call calls) (rest : List (CacheCall K V ε)) : Within call (calls ++ rest) := by
  induction h with
  | here => exact .here
  | inside h => exact .inside h
  | past _ ih => exact .past ih

lemma ending_eq_stored {c : Cache K V} {key key' : K} {reply : Except ε V} {value : V}
    {evicted : Option K} (h : c.ending key' reply = .stored key value evicted) :
    key = key' ∧ reply = .ok value := by
  cases reply with
  | error e => cases h
  | ok value' =>
    rw [Cache.ending] at h
    split at h
    · cases h
    · cases h
      exact ⟨rfl, rfl⟩

mutual
lemma within_of_stored_mem_steps {c : Cache K V} {call : CacheCall K V ε} {key : K} {value : V}
    {evicted : Option K} (h : .stored key value evicted ∈ steps c call) :
    ∃ nested, Within (.fetch key nested (.ok value)) [call] := by
  match call with
  | .get _ => simp [steps] at h
  | .fetch key' nested reply =>
    rw [steps] at h
    split at h
    · simp at h
    · rcases List.mem_cons.mp h with h | h
      · cases h
      · rcases List.mem_append.mp h with h | h
        · obtain ⟨nested', hwithin⟩ := within_of_stored_mem_stepsAll h
          exact ⟨nested', .inside hwithin⟩
        · obtain ⟨rfl, rfl⟩ := ending_eq_stored (List.mem_singleton.mp h).symm
          exact ⟨nested, .here⟩

/-- What is stored is what the generator of a request for the same key replied. -/
lemma within_of_stored_mem_stepsAll {c : Cache K V} {calls : List (CacheCall K V ε)} {key : K}
    {value : V} {evicted : Option K} (h : .stored key value evicted ∈ stepsAll c calls) :
    ∃ nested, Within (.fetch key nested (.ok value)) calls := by
  match calls with
  | [] => simp [stepsAll] at h
  | call :: rest =>
    rw [stepsAll] at h
    rcases List.mem_append.mp h with h | h
    · obtain ⟨nested, hwithin⟩ := within_of_stored_mem_steps h
      exact ⟨nested, hwithin.append rest⟩
    · obtain ⟨nested, hwithin⟩ := within_of_stored_mem_stepsAll h
      exact ⟨nested, .past hwithin⟩
end

/-! ### Whole runs -/

/-- What a request hands out is held when it comes to its end. -/
lemma get?_of_run_fetch {c c' : Cache K V} {key : K} {nested : List (CacheCall K V ε)}
    {reply : Except ε V} {value : V} {generated : Bool} {answers : List (CacheAnswer K V ε)}
    {evicted : Option K} (h : run c (.fetch key nested reply) =
      (.fetched (.ok value) generated answers evicted, c')) : c'.get? key = some value := by
  cases hget : c.get? key with
  | some first =>
    rw [run_fetch_of_some hget] at h
    cases h
    exact (Cache.get?_touch c key key).trans hget
  | none =>
    have hmoves := trace_ending c key nested reply hget
    rw [h] at hmoves
    refine hmoves.get?_of_given ?_
    cases reply with
    | error e =>
      rw [run_fetch_error hget] at h
      cases h
    | ok made =>
      rw [run_fetch_ok hget] at h
      cases hstill : (during c nested).2.get? key with
      | some first =>
        rw [Cache.store_of_some hstill] at h
        cases h
        simp [Cache.ending, hstill, CacheStep.given?]
      | none =>
        simp only [Cache.store, Cache.lookup_of_none hstill] at h
        cases h
        simp [Cache.ending, hstill, CacheStep.given?]

/-- Everybody gets the value of a key that was stored first. -/
structure FirstStored (start : Cache K V) (calls : List (CacheCall K V ε))
    (log : List (CacheStep K V ε)) : Prop where
  /-- What is handed out is held right then, and was generated for the same key. -/
  handed : ∀ before step after c c' key value, log = before ++ step :: after →
    Cache.Trace start before c → Cache.Moves c step c' → step.given? = some (key, value) →
      c'.get? key = some value ∧
      (∃ evicted, .stored key value evicted ∈ before ++ [step]) ∧
      ∃ nested, Within (.fetch key nested (.ok value)) calls
  /-- What is held stays the same as long as something is held. -/
  kept : ∀ before between after c c' key value, log = before ++ between ++ after →
    Cache.Trace start before c → Cache.Trace c between c' → c.get? key = some value →
      (∀ early late c'', between = early ++ late → Cache.Trace c early c'' →
        c''.get? key ≠ none) →
      c'.get? key = some value
  /-- Two values handed out for a key that is not dropped in between are the same. -/
  same : ∀ before first between second after key value value',
    log = before ++ first :: between ++ second :: after →
      first.given? = some (key, value) → second.given? = some (key, value') →
      (∀ step ∈ between, step.evicted? ≠ some key) → value' = value

lemma firstStored_of_trace {start final : Cache K V} {calls : List (CacheCall K V ε)}
    (hstart : ∀ key, start.get? key = none)
    (htrace : Cache.Trace start (stepsAll start calls) final) :
    FirstStored start calls (stepsAll start calls) where
  handed := by
    intro before step after c c' key value hlog hbefore hmoves hgiven
    have hheld := hmoves.get?_of_given hgiven
    have hstored : ∃ evicted, .stored key value evicted ∈ before ++ [step] := by
      rcases (hbefore.append hmoves.trace).get?_origin hheld with hget | hstored
      · rw [hstart key] at hget
        cases hget
      · exact hstored
    obtain ⟨evicted, hmem⟩ := hstored
    have hlogged : .stored key value evicted ∈ stepsAll start calls := by
      rw [hlog]
      simpa using Or.imp_right Or.inl (List.mem_append.mp hmem)
    exact ⟨hheld, ⟨evicted, hmem⟩, within_of_stored_mem_stepsAll hlogged⟩
  kept := by
    intro before between after c c' key value _ _ hbetween hget hheld
    exact hbetween.get?_of_held hget hheld
  same := by
    intro before first between second after key value value' hlog hfirst hsecond hkept
    rw [hlog, List.append_assoc] at htrace
    obtain ⟨c₁, _, hrest⟩ := htrace.exists_between
    have hsplit : first :: between ++ second :: after =
        (first :: between ++ [second]) ++ after := by simp
    rw [hsplit] at hrest
    obtain ⟨c₄, hupto, _⟩ := hrest.exists_between
    obtain ⟨c₃, hbetween, hlast⟩ := hupto.exists_between
    cases hbetween with
    | cons hmoves hbetween =>
      cases hlast with
      | cons hmoves' _ =>
        have hget := hbetween.get?_of_not_evicted (hmoves.get?_of_given hfirst) hkept
        exact hmoves'.eq_of_given hget hsecond

/-- In every run of calls on a new cache, the first value stored under a key is the one everybody
gets. The steps of the run are told by `stepsAll`, in their order. Wherever a request is made, the
value it returns is the one it leaves under its key, and if its generator fails, it returns the
error and leaves the cache that the calls inside it left. -/
theorem runAll_firstStored (capacity : ℕ) (calls : List (CacheCall K V ε)) :
    let start : Cache K V := .empty capacity
    let ran := runAll start calls
    let log := stepsAll start calls
    (Cache.Trace start log ran.2 ∧
      log.filterMap CacheStep.given? = givenAll calls ran.1 ∧
      log.filterMap CacheStep.evicted? = CacheAnswer.evictedAll ran.1) ∧
    FirstStored start calls log ∧
    (∀ (c c' : Cache K V) (key : K) (nested : List (CacheCall K V ε)) (reply : Except ε V)
        (value : V) (generated : Bool) (answers : List (CacheAnswer K V ε)) (evicted : Option K),
      run c (.fetch key nested reply) = (.fetched (.ok value) generated answers evicted, c') →
        c'.get? key = some value) ∧
    ∀ (c : Cache K V) (key : K) (nested : List (CacheCall K V ε)) (e : ε), c.get? key = none →
      let inside := runAll { c with misses := c.misses + 1 } nested
      run c (.fetch key nested (.error e)) =
        (.fetched (.error e) true inside.1 none, inside.2) := by
  intro start ran log
  have htrace := trace_stepsAll start calls
  have htells := tells_stepsAll start calls
  refine ⟨⟨htrace, htells.given, htells.evicted⟩, firstStored_of_trace (fun _ => rfl) htrace,
    ?_, ?_⟩
  · intro c c' key nested reply value generated answers evicted hrun
    exact get?_of_run_fetch hrun
  · intro c key nested e hget
    exact run_fetch_error hget nested e

end CacheCall

end Sightline
