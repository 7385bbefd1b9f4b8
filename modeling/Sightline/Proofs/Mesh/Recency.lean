import Mathlib.Tactic
import Sightline.Mesh.CacheCall
import Sightline.Proofs.Mesh.Ticks

/-!
# Caches as recency lists

A cache is a list of entries, the one used last in front, that is cut at the end when it would get
too long. The rules of such lists are given first, for calls whose generators make calls of their
own; then caches are shown to follow them, as long as the count of ticks does not wrap around.
-/

namespace Sightline

variable {K V ε : Type}

/-! ### Recency lists -/

namespace Recency

variable [DecidableEq K]

/-- Nothing is held under a key. -/
def Lacks (l : List (K × V)) (key : K) : Prop := ∀ value, (key, value) ∉ l

/-- The list after the entry of a key was used. -/
def used (l : List (K × V)) (key : K) (value : V) : List (K × V) :=
  (key, value) :: l.filter fun entry => entry.1 ≠ key

mutual
/-- What a call comes to on a list of at most `capacity` entries, and the list it leaves. -/
inductive Answers (capacity : ℕ) :
    List (K × V) → CacheCall K V ε → CacheAnswer K V ε → List (K × V) → Prop
  | held {l key value} (h : (key, value) ∈ l) :
      Answers capacity l (.get key) (.got (some value)) (used l key value)
  | lacking {l key} (h : Lacks l key) : Answers capacity l (.get key) (.got none) l
  | found {l key value nested reply} (h : (key, value) ∈ l) :
      Answers capacity l (.fetch key nested reply) (.fetched (.ok value) false [] none)
        (used l key value)
  | failed {l l' key nested answers e} (h : Lacks l key)
      (hnested : AnswersAll capacity l nested answers l') :
      Answers capacity l (.fetch key nested (.error e)) (.fetched (.error e) true answers none) l'
  /-- While the value was generated, another one was stored under the key. -/
  | overtaken {l l' key nested answers value first} (h : Lacks l key)
      (hnested : AnswersAll capacity l nested answers l') (hfirst : (key, first) ∈ l') :
      Answers capacity l (.fetch key nested (.ok value)) (.fetched (.ok first) true answers none)
        (used l' key first)
  | added {l l' key nested answers value} (h : Lacks l key)
      (hnested : AnswersAll capacity l nested answers l') (hstill : Lacks l' key)
      (hroom : l'.length < capacity) :
      Answers capacity l (.fetch key nested (.ok value)) (.fetched (.ok value) true answers none)
        ((key, value) :: l')
  | replacing {l l' key nested answers value} {old : K × V} (h : Lacks l key)
      (hnested : AnswersAll capacity l nested answers (l' ++ [old]))
      (hstill : Lacks (l' ++ [old]) key) (hfull : (l' ++ [old]).length = capacity) :
      Answers capacity l (.fetch key nested (.ok value))
        (.fetched (.ok value) true answers (some old.1)) ((key, value) :: l')

/-- What calls come to, one after the other. -/
inductive AnswersAll (capacity : ℕ) :
    List (K × V) → List (CacheCall K V ε) → List (CacheAnswer K V ε) → List (K × V) → Prop
  | nil {l} : AnswersAll capacity l [] [] l
  | cons {l l' l'' call calls answer answers} (hfirst : Answers capacity l call answer l')
      (hrest : AnswersAll capacity l' calls answers l'') :
      AnswersAll capacity l (call :: calls) (answer :: answers) l''
end

end Recency

mutual
/-- The number of times a value was found or stored by a call and the calls inside it. -/
def CacheAnswer.uses : CacheAnswer K V ε → ℕ
  | .got none => 0
  | .got (some _) => 1
  | .fetched (.error _) _ nested _ => usesAll nested
  | .fetched (.ok _) _ nested _ => usesAll nested + 1

/-- The number of times a value was found or stored by calls. -/
def CacheAnswer.usesAll : List (CacheAnswer K V ε) → ℕ
  | [] => 0
  | answer :: answers => answer.uses + usesAll answers
end

/-! ### Caches follow the rules -/

namespace CacheCall

variable [DecidableEq K] {c : Cache K V} {key : K} {value : V}

/-- The calls made while a missing value is generated. -/
def during (c : Cache K V) (nested : List (CacheCall K V ε)) :
    List (CacheAnswer K V ε) × Cache K V :=
  runAll { c with misses := c.misses + 1 } nested

lemma run_get_of_some (hget : c.get? key = some value) :
    run c (.get key : CacheCall K V ε) = (.got (some value), c.touch key) := by
  simp [run, Cache.lookup_of_some hget]

lemma run_get_of_none (hget : c.get? key = none) :
    run c (.get key : CacheCall K V ε) = (.got none, c) := by
  simp [run, Cache.lookup_of_none hget]

lemma run_fetch_of_some (hget : c.get? key = some value) (nested : List (CacheCall K V ε))
    (reply : Except ε V) :
    run c (.fetch key nested reply) =
      (.fetched (.ok value) false [] none,
        { c.touch key with hits := (c.touch key).hits + 1 }) := by
  simp [run, Cache.fetch, Cache.lookup_of_some hget]

lemma run_fetch_error (hget : c.get? key = none) (nested : List (CacheCall K V ε)) (e : ε) :
    run c (.fetch key nested (.error e)) =
      (.fetched (.error e) true (during c nested).1 none, (during c nested).2) := by
  simp [run, Cache.fetch, Cache.lookup_of_none hget, during]

lemma run_fetch_ok (hget : c.get? key = none) (nested : List (CacheCall K V ε)) (value : V) :
    run c (.fetch key nested (.ok value)) =
      (.fetched (.ok ((during c nested).2.store key value).1) true (during c nested).1
          ((during c nested).2.store key value).2.2,
        ((during c nested).2.store key value).2.1) := by
  simp [run, Cache.fetch, Cache.lookup_of_none hget, during]

/-- A cache takes as many ticks as values are found or stored, and answers as its list does. -/
structure Follows (c : Cache K V) (call : CacheCall K V ε) : Prop where
  took : c.Took (run c call).2 (run c call).1.uses
  answers : Recency.Answers c.capacity c.recency call (run c call).1 (run c call).2.recency

structure FollowsAll (c : Cache K V) (calls : List (CacheCall K V ε)) : Prop where
  took : c.Took (runAll c calls).2 (CacheAnswer.usesAll (runAll c calls).1)
  answers : Recency.AnswersAll c.capacity c.recency calls (runAll c calls).1
    (runAll c calls).2.recency

lemma follows_get (h : c.Sound)
    (huses : c.tick.toNat + (run c (.get key : CacheCall K V ε)).1.uses < UInt64.size) :
    Follows c (.get key : CacheCall K V ε) := by
  cases hget : c.get? key with
  | none =>
    constructor <;> rw [run_get_of_none hget]
    · exact .refl h
    · exact .lacking (Cache.get?_eq_none_iff.mp hget)
  | some value =>
    rw [run_get_of_some hget] at huses
    have hmem := h.get?_eq_some_iff.mp hget
    obtain ⟨htook, hrecency⟩ := h.touch hmem huses
    constructor <;> rw [run_get_of_some hget]
    · exact htook
    · rw [hrecency]
      exact .held hmem

lemma follows_fetch_of_some (h : c.Sound) (hget : c.get? key = some value)
    (nested : List (CacheCall K V ε)) (reply : Except ε V)
    (htick : c.tick.toNat + 1 < UInt64.size) :
    Follows c (.fetch key nested reply) := by
  have hmem := h.get?_eq_some_iff.mp hget
  obtain ⟨htook, hrecency⟩ := h.touch hmem htick
  constructor <;> rw [run_fetch_of_some hget]
  · exact htook.counted _ _
  · change Recency.Answers c.capacity c.recency _ _ (c.touch key).recency
    rw [hrecency]
    exact .found hmem

/-- Counting the miss makes no difference to the nested calls. -/
lemma FollowsAll.during {nested : List (CacheCall K V ε)}
    (h : FollowsAll { c with misses := c.misses + 1 } nested) :
    c.Took (during c nested).2 (CacheAnswer.usesAll (during c nested).1) ∧
      Recency.AnswersAll c.capacity c.recency nested (during c nested).1
        (during c nested).2.recency :=
  ⟨⟨h.took.sound, h.took.capacity, h.took.tick⟩, h.answers⟩

lemma follows_fetch_error (hget : c.get? key = none) {nested : List (CacheCall K V ε)} (e : ε)
    (hnested : FollowsAll { c with misses := c.misses + 1 } nested) :
    Follows c (.fetch key nested (.error e)) := by
  obtain ⟨htook, hanswers⟩ := hnested.during
  constructor <;> rw [run_fetch_error hget]
  · exact htook
  · exact .failed (Cache.get?_eq_none_iff.mp hget) hanswers

/-- What was generated is stored in the cache that the nested calls left. -/
lemma follows_fetch_ok (hget : c.get? key = none) {nested : List (CacheCall K V ε)} (value : V)
    (hnested : FollowsAll { c with misses := c.misses + 1 } nested)
    (htick : (during c nested).2.tick.toNat + 1 < UInt64.size) :
    Follows c (.fetch key nested (.ok value)) := by
  have hlacks := Cache.get?_eq_none_iff.mp hget
  obtain ⟨hfirst, hanswers⟩ := hnested.during
  have hsound := hfirst.sound
  cases hstill : (during c nested).2.get? key with
  | some first =>
    have hmem := hsound.get?_eq_some_iff.mp hstill
    obtain ⟨htook, hrecency⟩ := hsound.touch hmem htick
    constructor <;> rw [run_fetch_ok hget, Cache.store_of_some hstill]
    · exact hfirst.trans htook
    · rw [hrecency]
      exact .overtaken hlacks hanswers hmem
  | none =>
    have hstill' := Cache.get?_eq_none_iff.mp hstill
    by_cases hroom : (during c nested).2.size < (during c nested).2.capacity
    · obtain ⟨c', hstore, htook, hrecency⟩ := hsound.store_of_room hstill hroom htick
      constructor <;> rw [run_fetch_ok hget, hstore]
      · exact hfirst.trans htook
      · rw [hrecency]
        refine .added hlacks hanswers hstill' ?_
        rw [Cache.length_recency, ← hfirst.capacity]
        exact hroom
    · have hfull := Nat.not_lt.mp hroom
      obtain ⟨c', kept, old, hlist, hstore, htook, hrecency⟩ :=
        hsound.store_of_full hstill hfull htick
      constructor <;> rw [run_fetch_ok hget, hstore]
      · exact hfirst.trans htook
      · rw [hrecency]
        refine .replacing hlacks (hlist ▸ hanswers) (hlist ▸ hstill') ?_
        rw [← hlist, Cache.length_recency, ← hfirst.capacity]
        exact hsound.size_le.antisymm hfull

mutual
/-- The calls inside a call come to their end before it stores anything, so that the rules hold of
them first. -/
lemma follows (c : Cache K V) (call : CacheCall K V ε) (h : c.Sound)
    (huses : c.tick.toNat + (run c call).1.uses < UInt64.size) : Follows c call := by
  match call with
  | .get key => exact follows_get h huses
  | .fetch key nested reply =>
    cases hget : c.get? key with
    | some value =>
      rw [run_fetch_of_some hget] at huses
      exact follows_fetch_of_some h hget nested reply huses
    | none =>
      have hsound := (Cache.Took.refl h).counted c.hits (c.misses + 1) |>.sound
      cases reply with
      | error e =>
        rw [run_fetch_error hget] at huses
        exact follows_fetch_error hget e (followsAll _ nested hsound huses)
      | ok value =>
        rw [run_fetch_ok hget, CacheAnswer.uses] at huses
        have hnested := followsAll _ nested hsound (by
          change c.tick.toNat + CacheAnswer.usesAll (during c nested).1 < _
          omega)
        refine follows_fetch_ok hget value hnested ?_
        rw [hnested.during.1.tick]
        omega

lemma followsAll (c : Cache K V) (calls : List (CacheCall K V ε)) (h : c.Sound)
    (huses : c.tick.toNat + CacheAnswer.usesAll (runAll c calls).1 < UInt64.size) :
    FollowsAll c calls := by
  match calls with
  | [] => exact ⟨.refl h, .nil⟩
  | call :: rest =>
    simp only [runAll, CacheAnswer.usesAll] at huses
    have hfirst := follows c call h (by omega)
    have hrest := followsAll _ rest hfirst.took.sound (by rw [hfirst.took.tick]; omega)
    exact ⟨hfirst.took.trans hrest.took,
      .cons hfirst.answers (hfirst.took.capacity ▸ hrest.answers)⟩
end

/-! ### On the way -/

/-- The states a cache goes through while calls are made on it, also those that the calls inside
other calls find. -/
inductive Passes : Cache K V → List (CacheCall K V ε) → Cache K V → Prop
  | here {c calls} : Passes c calls c
  | inside {c c' key nested reply rest} (hget : c.get? key = none)
      (h : Passes { c with misses := c.misses + 1 } nested c') :
      Passes c (.fetch key nested reply :: rest) c'
  | past {c c' call rest} (h : Passes (run c call).2 rest c') : Passes c (call :: rest) c'

lemma usesAll_during_le (hget : c.get? key = none) (nested : List (CacheCall K V ε))
    (reply : Except ε V) :
    CacheAnswer.usesAll (during c nested).1 ≤ (run c (.fetch key nested reply)).1.uses := by
  cases reply with
  | error e => rw [run_fetch_error hget, CacheAnswer.uses]
  | ok value =>
    rw [run_fetch_ok hget, CacheAnswer.uses]
    exact Nat.le_succ _

lemma Passes.sound {c c' : Cache K V} {calls : List (CacheCall K V ε)} (hpasses : Passes c calls c')
    (h : c.Sound)
    (huses : c.tick.toNat + CacheAnswer.usesAll (runAll c calls).1 < UInt64.size) :
    c'.Sound ∧ c'.capacity = c.capacity := by
  induction hpasses with
  | here => exact ⟨h, rfl⟩
  | @inside c c' key nested reply rest hget _ ih =>
    simp only [runAll, CacheAnswer.usesAll] at huses
    have hle := usesAll_during_le hget nested reply
    refine ih ((Cache.Took.refl h).counted c.hits (c.misses + 1)).sound ?_
    change c.tick.toNat + CacheAnswer.usesAll (during c nested).1 < UInt64.size
    omega
  | @past c c' call rest _ ih =>
    simp only [runAll, CacheAnswer.usesAll] at huses
    have hfirst := follows c call h (by omega)
    obtain ⟨hsound, hcapacity⟩ := ih hfirst.took.sound (by rw [hfirst.took.tick]; omega)
    exact ⟨hsound, hcapacity.trans hfirst.took.capacity⟩

/-- As long as the count of ticks does not wrap around, a cache is a bounded recency list: it
answers as one and holds what one would hold. On the way it never holds too much, and there is no
choice which key has to go, in whatever order the slots are looked at. -/
theorem runAll_recency (capacity : ℕ) (calls : List (CacheCall K V ε))
    (huses : CacheAnswer.usesAll (runAll (Cache.empty capacity) calls).1 < UInt64.size) :
    let start : Cache K V := .empty capacity
    let ran := runAll start calls
    Recency.AnswersAll (max capacity 1) [] calls ran.1 ran.2.recency ∧
    ran.2.tick.toNat = CacheAnswer.usesAll ran.1 ∧
    ∀ c, Passes start calls c →
      c.size ≤ max capacity 1 ∧ (c.slots.map Slot.lastUsed).Nodup ∧
      ∀ slots, slots.Perm c.slots → Cache.oldest? slots = Cache.oldest? c.slots := by
  intro start ran
  have hempty : start.recency = [] := by simp [start, Cache.recency, Cache.byUse, Cache.empty]
  have hstart : start.tick.toNat = 0 := rfl
  have hfollows := followsAll start calls (Cache.sound_empty capacity)
    (by rw [hstart, Nat.zero_add]; exact huses)
  refine ⟨hempty ▸ hfollows.answers, ?_, fun c hpasses => ?_⟩
  · rw [hfollows.took.tick, hstart, Nat.zero_add]
  · obtain ⟨hsound, hcapacity⟩ := hpasses.sound (Cache.sound_empty capacity)
      (by rw [hstart, Nat.zero_add]; exact huses)
    exact ⟨hsound.size_le.trans_eq hcapacity, hsound.ticks,
      fun _ => Cache.oldest?_perm hsound.ticks⟩

/-- Two slots: the value of `2` is generated twice, one run inside the other, and `1` has to go when
`3` comes. -/
theorem runAll_recency_nested :
    let calls : List (CacheCall ℕ ℕ Unit) :=
      [.fetch 1 [] (.ok 10), .fetch 2 [.fetch 2 [] (.ok 20), .get 1] (.ok 21),
        .fetch 3 [] (.ok 30), .fetch 4 [] (.error ())]
    let start : Cache ℕ ℕ := .empty 2
    let ran := runAll start calls
    CacheAnswer.usesAll ran.1 < UInt64.size ∧ CacheAnswer.evictedAll ran.1 = [1] ∧
      Recency.AnswersAll 2 [] calls ran.1 ran.2.recency := by
  intro calls start ran
  have huses : CacheAnswer.usesAll ran.1 < UInt64.size := by decide +kernel
  exact ⟨huses, by decide +kernel, (runAll_recency 2 calls huses).1⟩

end CacheCall

end Sightline
