import Mathlib.Tactic
import Sightline.Mesh.CacheCall
import Sightline.Proofs.Mesh.Recency

/-!
# What happens to a cache, step by step

Calls on a cache come to a list of steps, each of which looks at the cache once and changes it at
most once; the steps of the calls inside a request stand between its first step and its last one.
What one step can do is said once, by `Cache.Moves`, and what a whole run keeps is proved from
that. None of it depends on the count of ticks.
-/

namespace Sightline

variable {K V ε : Type}

/-- One step of a call. -/
inductive CacheStep (K V ε : Type) where
  /-- A key is looked up without generating. -/
  | looked (key : K) (held : Option V)
  /-- A request finds the value of its key. -/
  | found (key : K) (value : V)
  /-- A request finds nothing, and generating begins. -/
  | missed (key : K)
  /-- Generating comes to an end without a value. -/
  | failed (key : K) (e : ε)
  /-- Generating comes to an end with a value that is dropped for the one stored meanwhile. -/
  | overtaken (key : K) (value first : V)
  /-- Generating comes to an end with a value that is stored, for which a key may have to go. -/
  | stored (key : K) (value : V) (evicted : Option K)

namespace CacheStep

/-- The value a step hands out, with its key. -/
def given? : CacheStep K V ε → Option (K × V)
  | looked key held => held.map (key, ·)
  | found key value => some (key, value)
  | missed _ => none
  | failed _ _ => none
  | overtaken key _ first => some (key, first)
  | stored key value _ => some (key, value)

/-- The key a step drops. -/
def evicted? : CacheStep K V ε → Option K
  | stored _ _ evicted => evicted
  | _ => none

/-- The sorts of steps. -/
inductive Kind where
  | looked
  | found
  | missed
  | failed
  | overtaken
  | stored
deriving DecidableEq

/-- The sort of a step. -/
def kind : CacheStep K V ε → Kind
  | looked _ _ => .looked
  | found _ _ => .found
  | missed _ => .missed
  | failed _ _ => .failed
  | overtaken _ _ _ => .overtaken
  | stored _ _ _ => .stored

@[simp] lemma kind_missed (key : K) : (missed key : CacheStep K V ε).kind = .missed := rfl

/-- The number of steps of one sort. -/
def tally (k : Kind) (steps : List (CacheStep K V ε)) : ℕ := steps.countP (·.kind = k)

@[simp] lemma tally_nil (k : Kind) : tally k ([] : List (CacheStep K V ε)) = 0 := rfl

@[simp] lemma tally_cons (k : Kind) (step : CacheStep K V ε) (steps : List (CacheStep K V ε)) :
    tally k (step :: steps) = tally k steps + if step.kind = k then 1 else 0 := by
  simp [tally, List.countP_cons]

@[simp] lemma tally_append (k : Kind) (steps steps' : List (CacheStep K V ε)) :
    tally k (steps ++ steps') = tally k steps + tally k steps' := List.countP_append

end CacheStep

namespace Cache

/-- What a step can find in a cache and what it leaves. -/
inductive Moves [DecidableEq K] : Cache K V → CacheStep K V ε → Cache K V → Prop
  | lacked {c key} (h : c.get? key = none) : Moves c (.looked key none) c
  | looked {c key value} (h : c.get? key = some value) :
      Moves c (.looked key (some value)) (c.touch key)
  | found {c key value} (h : c.get? key = some value) :
      Moves c (.found key value) { c.touch key with hits := (c.touch key).hits + 1 }
  | missed {c key} (h : c.get? key = none) :
      Moves c (.missed key) { c with misses := c.misses + 1 }
  | failed {c key e} : Moves c (.failed key e) c
  | overtaken {c key value first} (h : c.get? key = some first) :
      Moves c (.overtaken key value first) (c.touch key)
  | stored {c key value} (h : c.get? key = none) :
      Moves c (.stored key value c.makeRoom.2) (c.makeRoom.1.insert key value)

/-- A cache goes from one state to another by steps. -/
inductive Trace [DecidableEq K] : Cache K V → List (CacheStep K V ε) → Cache K V → Prop
  | nil {c} : Trace c [] c
  | cons {c c' c'' step steps} (h : Moves c step c') (hrest : Trace c' steps c'') :
      Trace c (step :: steps) c''

variable [DecidableEq K] {c c' : Cache K V} {key : K} {value : V}

/-! ### What is held after a change -/

lemma get?_touch (c : Cache K V) (key key' : K) : (c.touch key').get? key = c.get? key := by
  have hfind : ∀ slots : List (Slot K V),
      ((slots.map fun s => if s.key == key' then { s with lastUsed := c.tick + 1 } else s).find?
        (·.key == key)).map Slot.value = (slots.find? (·.key == key)).map Slot.value := by
    intro slots
    induction slots with
    | nil => rfl
    | cons s rest ih =>
      by_cases hkey : s.key = key <;> by_cases hused : s.key = key' <;> simp_all
  exact hfind c.slots

lemma get?_insert (hlacks : c.get? key = none) (value : V) (key' : K) :
    (c.insert key value).get? key' = if key' = key then some value else c.get? key' := by
  rw [get?, slot?, Option.map_eq_none_iff] at hlacks
  by_cases hkey : key' = key
  · simp [get?, slot?, Cache.insert, List.find?_append, hkey, hlacks]
  · simp [get?, slot?, Cache.insert, List.find?_append, hkey, Ne.symm hkey]

/-- Making room drops one entry of a full cache and none of another. -/
lemma makeRoom_cases (c : Cache K V) :
    (c.makeRoom = (c, none) ∧ (c.size < c.capacity ∨ c.slots = [])) ∨
      ∃ s ∈ c.slots, c.capacity ≤ c.size ∧
        c.makeRoom = ({ c with
          slots := c.slots.filter fun t => t.key != s.key
          evictions := c.evictions + 1 }, some s.key) := by
  unfold makeRoom
  split
  next hfull =>
    split
    next s hold => exact .inr ⟨s, (mem_and_le_of_oldest? hold).1, hfull, rfl⟩
    next hold => exact .inl ⟨rfl, .inr (oldest?_eq_none_iff.mp hold)⟩
  next hroom => exact .inl ⟨rfl, .inl (Nat.lt_of_not_le hroom)⟩

lemma get?_makeRoom (c : Cache K V) (key : K) :
    c.makeRoom.1.get? key = if c.makeRoom.2 = some key then none else c.get? key := by
  rcases c.makeRoom_cases with ⟨hroom, _⟩ | ⟨s, _, _, hroom⟩
  · simp [hroom]
  · rw [hroom]
    simp only [get?, slot?, List.find?_filter, Option.some.injEq]
    split_ifs with hkey
    · subst hkey
      simp
    · congr 2
      funext t
      by_cases ht : t.key = key
      · simp [ht, Ne.symm hkey]
      · simp [ht]

lemma get?_makeRoom_of_lacks (hlacks : c.get? key = none) : c.makeRoom.1.get? key = none := by
  rw [get?_makeRoom, hlacks, ite_self]

/-! ### Steps -/

variable {step : CacheStep K V ε} {steps steps' : List (CacheStep K V ε)}

lemma Moves.trace (h : Moves c step c') : Trace c [step] c' := .cons h .nil

lemma Trace.append {c'' : Cache K V} (h : Trace c steps c') (h' : Trace c' steps' c'') :
    Trace c (steps ++ steps') c'' := by
  induction h with
  | nil => exact h'
  | cons hmoves _ ih => exact .cons hmoves (ih h')

lemma Trace.exists_between {c'' : Cache K V} (h : Trace c (steps ++ steps') c'') :
    ∃ c', Trace c steps c' ∧ Trace c' steps' c'' := by
  induction steps generalizing c with
  | nil => exact ⟨c, .nil, h⟩
  | cons step rest ih =>
    cases h with
    | cons hmoves hrest =>
      obtain ⟨c', hbefore, hafter⟩ := ih hrest
      exact ⟨c', .cons hmoves hbefore, hafter⟩

/-- A step leaves no choice what becomes of the cache. -/
lemma Moves.unique {c'' : Cache K V} (h : Moves c step c') (h' : Moves c step c'') : c' = c'' := by
  cases h <;> cases h' <;> rfl

lemma Trace.unique {c'' : Cache K V} (h : Trace c steps c') (h' : Trace c steps c'') :
    c' = c'' := by
  induction h with
  | nil =>
    cases h'
    rfl
  | cons hmoves _ ih =>
    cases h' with
    | cons hmoves' hrest' =>
      cases hmoves.unique hmoves'
      exact ih hrest'

/-- How generating comes to an end. -/
def ending (c : Cache K V) (key : K) : Except ε V → CacheStep K V ε
  | .error e => .failed key e
  | .ok value =>
    match c.get? key with
    | some first => .overtaken key value first
    | none => .stored key value c.makeRoom.2

end Cache

/-! ### Steps of calls -/

namespace CacheCall

variable [DecidableEq K]

mutual
/-- The steps of a call, those of the calls inside it included. -/
def steps (c : Cache K V) : CacheCall K V ε → List (CacheStep K V ε)
  | .get key => [.looked key (c.get? key)]
  | .fetch key nested reply =>
    match c.get? key with
    | some value => [.found key value]
    | none =>
      .missed key :: (stepsAll { c with misses := c.misses + 1 } nested ++
        [(during c nested).2.ending key reply])

/-- The steps of calls made one after the other. -/
def stepsAll (c : Cache K V) : List (CacheCall K V ε) → List (CacheStep K V ε)
  | [] => []
  | call :: calls => steps c call ++ stepsAll (run c call).2 calls
end

lemma trace_ending (c : Cache K V) (key : K) (nested : List (CacheCall K V ε))
    (reply : Except ε V) (hget : c.get? key = none) :
    Cache.Moves (during c nested).2 ((during c nested).2.ending key reply)
      (run c (.fetch key nested reply)).2 := by
  cases reply with
  | error e =>
    rw [run_fetch_error hget]
    exact .failed
  | ok value =>
    rw [run_fetch_ok hget]
    cases hstill : (during c nested).2.get? key with
    | some first =>
      rw [Cache.store_of_some hstill]
      simp only [Cache.ending, hstill]
      exact .overtaken hstill
    | none =>
      simp only [Cache.ending, hstill, Cache.store, Cache.lookup_of_none hstill]
      exact .stored hstill

mutual
/-- The steps of a call lead to the cache it leaves. -/
lemma trace_steps (c : Cache K V) (call : CacheCall K V ε) :
    Cache.Trace c (steps c call) (run c call).2 := by
  match call with
  | .get key =>
    rw [steps]
    cases hget : c.get? key with
    | none =>
      rw [run_get_of_none hget]
      exact (Cache.Moves.lacked hget).trace
    | some value =>
      rw [run_get_of_some hget]
      exact (Cache.Moves.looked hget).trace
  | .fetch key nested reply =>
    cases hget : c.get? key with
    | some value =>
      rw [steps, hget, run_fetch_of_some hget]
      exact (Cache.Moves.found hget).trace
    | none =>
      rw [steps, hget]
      exact .cons (.missed hget) ((trace_stepsAll _ nested).append
        (trace_ending c key nested reply hget).trace)

lemma trace_stepsAll (c : Cache K V) (calls : List (CacheCall K V ε)) :
    Cache.Trace c (stepsAll c calls) (runAll c calls).2 := by
  match calls with
  | [] =>
    rw [stepsAll, runAll]
    exact .nil
  | call :: rest =>
    rw [stepsAll, runAll]
    exact (trace_steps c call).append (trace_stepsAll _ rest)
end

end CacheCall

/-! ### What steps tell about answers -/

mutual
/-- The number of requests among a call and the calls inside it. -/
def CacheAnswer.requests : CacheAnswer K V ε → ℕ
  | .got _ => 0
  | .fetched _ _ nested _ => requestsAll nested + 1

/-- The number of requests among calls. -/
def CacheAnswer.requestsAll : List (CacheAnswer K V ε) → ℕ
  | [] => 0
  | answer :: answers => answer.requests + requestsAll answers
end

mutual
/-- The number of requests that came to an error. -/
def CacheAnswer.failures : CacheAnswer K V ε → ℕ
  | .got _ => 0
  | .fetched (.ok _) _ nested _ => failuresAll nested
  | .fetched (.error _) _ nested _ => failuresAll nested + 1

/-- The number of requests among calls that came to an error. -/
def CacheAnswer.failuresAll : List (CacheAnswer K V ε) → ℕ
  | [] => 0
  | answer :: answers => answer.failures + failuresAll answers
end

namespace CacheCall

mutual
/-- What a call and the calls inside it hand out, in order. -/
def given : CacheCall K V ε → CacheAnswer K V ε → List (K × V)
  | .get key, .got value => (value.map (key, ·)).toList
  | .fetch key nested _, .fetched answer _ answers _ =>
    givenAll nested answers ++ (answer.toOption.map (key, ·)).toList
  | _, _ => []

/-- What calls hand out, in order. -/
def givenAll : List (CacheCall K V ε) → List (CacheAnswer K V ε) → List (K × V)
  | call :: calls, answer :: answers => given call answer ++ givenAll calls answers
  | _, _ => []
end

open CacheStep (tally)

/-- What the steps of calls say about their answers. Every generation that begins comes to one of
three ends. -/
structure Tells (steps : List (CacheStep K V ε)) (given : List (K × V)) (evicted : List K)
    (requests failures : ℕ) : Prop where
  given : steps.filterMap CacheStep.given? = given
  evicted : steps.filterMap CacheStep.evicted? = evicted
  requests : tally .found steps + tally .missed steps = requests
  failures : tally .failed steps = failures
  balanced : tally .missed steps =
    tally .failed steps + tally .overtaken steps + tally .stored steps

@[simp] lemma givenAll_nil (calls : List (CacheCall K V ε)) : givenAll calls [] = [] := by
  cases calls <;> rfl

lemma tells_nil : Tells ([] : List (CacheStep K V ε)) [] [] 0 0 := ⟨rfl, rfl, rfl, rfl, rfl⟩

lemma Tells.append {steps steps' : List (CacheStep K V ε)} {given given' : List (K × V)}
    {evicted evicted' : List K} {requests requests' failures failures' : ℕ}
    (h : Tells steps given evicted requests failures)
    (h' : Tells steps' given' evicted' requests' failures') :
    Tells (steps ++ steps') (given ++ given') (evicted ++ evicted') (requests + requests')
      (failures + failures') where
  given := by rw [List.filterMap_append, h.given, h'.given]
  evicted := by rw [List.filterMap_append, h.evicted, h'.evicted]
  requests := by
    rw [CacheStep.tally_append, CacheStep.tally_append, ← h.requests, ← h'.requests]
    omega
  failures := by rw [CacheStep.tally_append, h.failures, h'.failures]
  balanced := by
    have hbalanced := h.balanced
    have hbalanced' := h'.balanced
    simp only [CacheStep.tally_append]
    omega

/-- A generation that begins stands around the steps of the calls inside it. -/
lemma Tells.around {steps : List (CacheStep K V ε)} {given : List (K × V)} {evicted : List K}
    {requests failures : ℕ} (h : Tells steps given evicted requests failures) (key : K)
    {last : CacheStep K V ε}
    (hlast : last.kind = .failed ∨ last.kind = .overtaken ∨ last.kind = .stored) :
    Tells (.missed key :: (steps ++ [last])) (given ++ last.given?.toList)
      (evicted ++ last.evicted?.toList) (requests + 1)
      (failures + if last.kind = .failed then 1 else 0) where
  given := by
    rw [List.filterMap_cons_none rfl, List.filterMap_append, h.given]
    cases hgiven : last.given? <;> simp [hgiven]
  evicted := by
    rw [List.filterMap_cons_none rfl, List.filterMap_append, h.evicted]
    cases hevicted : last.evicted? <;> simp [hevicted]
  requests := by
    rw [← h.requests]
    rcases hlast with hkind | hkind | hkind <;> simp [hkind] <;> omega
  failures := by simp [h.failures]
  balanced := by
    have hbalanced := h.balanced
    rcases hlast with hkind | hkind | hkind <;> simp [hkind] <;> omega

variable [DecidableEq K]

lemma tells_fetch_of_none {c : Cache K V} {key : K} {nested : List (CacheCall K V ε)}
    (reply : Except ε V) (hget : c.get? key = none) {answers : List (CacheAnswer K V ε)}
    (hanswers : (during c nested).1 = answers)
    (h : Tells (stepsAll { c with misses := c.misses + 1 } nested) (givenAll nested answers)
      (CacheAnswer.evictedAll answers) (CacheAnswer.requestsAll answers)
      (CacheAnswer.failuresAll answers)) :
    Tells (steps c (.fetch key nested reply))
      (given (.fetch key nested reply) (run c (.fetch key nested reply)).1)
      (run c (.fetch key nested reply)).1.evicted (run c (.fetch key nested reply)).1.requests
      (run c (.fetch key nested reply)).1.failures := by
  subst hanswers
  rw [steps, hget]
  cases reply with
  | error e =>
    rw [run_fetch_error hget]
    exact h.around key (.inl rfl)
  | ok value =>
    rw [run_fetch_ok hget]
    cases hstill : (during c nested).2.get? key with
    | some first =>
      rw [Cache.store_of_some hstill]
      simp only [Cache.ending, hstill]
      exact h.around key (.inr (.inl rfl))
    | none =>
      simp only [Cache.ending, hstill, Cache.store, Cache.lookup_of_none hstill]
      exact h.around key (.inr (.inr rfl))

mutual
/-- The steps of a call hand out and drop what its answer says. -/
lemma tells_steps (c : Cache K V) (call : CacheCall K V ε) :
    Tells (steps c call) (given call (run c call).1) (run c call).1.evicted
      (run c call).1.requests (run c call).1.failures := by
  match call with
  | .get key =>
    rw [steps]
    cases hget : c.get? key with
    | none =>
      rw [run_get_of_none hget]
      exact ⟨rfl, rfl, rfl, rfl, rfl⟩
    | some value =>
      rw [run_get_of_some hget]
      exact ⟨rfl, rfl, rfl, rfl, rfl⟩
  | .fetch key nested reply =>
    cases hget : c.get? key with
    | some value =>
      rw [steps, hget, run_fetch_of_some hget, given, givenAll_nil]
      exact ⟨rfl, rfl, rfl, rfl, rfl⟩
    | none => exact tells_fetch_of_none reply hget rfl (tells_stepsAll _ nested)

lemma tells_stepsAll (c : Cache K V) (calls : List (CacheCall K V ε)) :
    Tells (stepsAll c calls) (givenAll calls (runAll c calls).1)
      (CacheAnswer.evictedAll (runAll c calls).1) (CacheAnswer.requestsAll (runAll c calls).1)
      (CacheAnswer.failuresAll (runAll c calls).1) := by
  match calls with
  | [] =>
    rw [stepsAll, runAll]
    exact tells_nil
  | call :: rest =>
    rw [stepsAll, runAll]
    exact (tells_steps c call).append (tells_stepsAll _ rest)
end

end CacheCall

end Sightline
