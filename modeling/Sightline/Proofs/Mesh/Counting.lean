import Mathlib.Tactic
import Sightline.Proofs.Mesh.Steps

/-!
# The counts of a cache

Every step of a run is counted at most once: finding a value as a hit, beginning to generate as a
miss, dropping a key as an eviction. So the counts tell how many requests there were, and what has
become of every value that was generated.
-/

namespace Sightline

variable {K V ε : Type}

open CacheStep (tally)

namespace CacheStep

/-- The number of keys that steps drop. -/
def drops (steps : List (CacheStep K V ε)) : ℕ := (steps.filterMap evicted?).length

@[simp] lemma drops_nil : drops ([] : List (CacheStep K V ε)) = 0 := rfl

@[simp] lemma drops_cons (step : CacheStep K V ε) (steps : List (CacheStep K V ε)) :
    drops (step :: steps) = step.evicted?.toList.length + drops steps := by
  cases hevicted : step.evicted? <;> simp [drops, hevicted, Nat.add_comm]

@[simp] lemma drops_append (steps steps' : List (CacheStep K V ε)) :
    drops (steps ++ steps') = drops steps + drops steps' := by simp [drops]

@[simp] lemma evicted?_stored (key : K) (value : V) (evicted : Option K) :
    (stored key value evicted : CacheStep K V ε).evicted? = evicted := rfl

@[simp] lemma kind_stored (key : K) (value : V) (evicted : Option K) :
    (stored key value evicted : CacheStep K V ε).kind = .stored := rfl

lemma evicted?_of_kind_ne {step : CacheStep K V ε} (h : step.kind ≠ .stored) :
    step.evicted? = none := by
  cases step with
  | stored => exact absurd rfl h
  | _ => rfl

end CacheStep

namespace Cache

/-- No key is in two slots, and there are not too many of them. -/
structure Fits (c : Cache K V) : Prop where
  keys : (c.slots.map Slot.key).Nodup
  size_le : c.size ≤ c.capacity
  capacity_pos : 0 < c.capacity

lemma fits_empty (capacity : ℕ) : (empty capacity : Cache K V).Fits where
  keys := List.nodup_nil
  size_le := Nat.zero_le _
  capacity_pos := Nat.lt_of_lt_of_le Nat.zero_lt_one (Nat.le_max_right _ _)

variable {c c' : Cache K V} {key : K} {step : CacheStep K V ε}
  {steps steps' : List (CacheStep K V ε)}

/-! ### What steps count -/

/-- A cache comes to another one by steps that are all counted. -/
structure Counted (c : Cache K V) (steps : List (CacheStep K V ε)) (c' : Cache K V) : Prop where
  fits : c'.Fits
  capacity : c'.capacity = c.capacity
  hits : c'.hits = c.hits + UInt64.ofNat (tally .found steps)
  misses : c'.misses = c.misses + UInt64.ofNat (tally .missed steps)
  evictions : c'.evictions = c.evictions + UInt64.ofNat (CacheStep.drops steps)
  size : c'.size + CacheStep.drops steps = c.size + tally .stored steps
  /-- Once an entry was dropped there is one in every slot. -/
  full : 0 < CacheStep.drops steps ∨ c.size = c.capacity → c'.size = c'.capacity

lemma Counted.refl (h : c.Fits) : c.Counted ([] : List (CacheStep K V ε)) c where
  fits := h
  capacity := rfl
  hits := (UInt64.add_zero _).symm
  misses := (UInt64.add_zero _).symm
  evictions := (UInt64.add_zero _).symm
  size := rfl
  full := fun hfull => hfull.resolve_left (Nat.lt_irrefl 0)

lemma Counted.trans {c'' : Cache K V} (h : c.Counted steps c') (h' : c'.Counted steps' c'') :
    c.Counted (steps ++ steps') c'' where
  fits := h'.fits
  capacity := h'.capacity.trans h.capacity
  hits := by
    rw [h'.hits, h.hits, CacheStep.tally_append, UInt64.ofNat_add, UInt64.add_assoc]
  misses := by
    rw [h'.misses, h.misses, CacheStep.tally_append, UInt64.ofNat_add, UInt64.add_assoc]
  evictions := by
    rw [h'.evictions, h.evictions, CacheStep.drops_append, UInt64.ofNat_add, UInt64.add_assoc]
  size := by
    have hsize := h.size
    have hsize' := h'.size
    rw [CacheStep.drops_append, CacheStep.tally_append]
    omega
  full := by
    intro hfull
    rw [CacheStep.drops_append] at hfull
    by_cases hdrops : 0 < CacheStep.drops steps'
    · exact h'.full (.inl hdrops)
    · exact h'.full (.inr (h.full (hfull.imp_left fun hpos => by omega)))

/-- Steps that store nothing leave the number of entries as it is. -/
lemma counted_of_size_eq (hfits : c'.Fits) (hsize : c'.size = c.size)
    (hcapacity : c'.capacity = c.capacity) (hkind : step.kind ≠ .stored)
    (hhits : c'.hits = c.hits + UInt64.ofNat (tally .found [step]))
    (hmisses : c'.misses = c.misses + UInt64.ofNat (tally .missed [step]))
    (hevictions : c'.evictions = c.evictions) : c.Counted [step] c' := by
  have hdrops : CacheStep.drops [step] = 0 := by simp [CacheStep.evicted?_of_kind_ne hkind]
  constructor
  case fits => exact hfits
  case capacity => exact hcapacity
  case hits => exact hhits
  case misses => exact hmisses
  case evictions =>
    rw [hdrops, hevictions]
    exact (UInt64.add_zero _).symm
  case size => simp [hdrops, hsize, hkind]
  case full => simp [hdrops, hsize, hcapacity]

variable [DecidableEq K]

/-! ### Changes -/

lemma size_touch (c : Cache K V) (key : K) : (c.touch key).size = c.size := List.length_map _

lemma Fits.touch (h : c.Fits) (key : K) : (c.touch key).Fits where
  keys := by
    have hkeys : (c.touch key).slots.map Slot.key = c.slots.map Slot.key := by
      rw [Cache.touch, List.map_map]
      refine List.map_congr_left fun s _ => ?_
      by_cases hkey : s.key = key <;> simp [hkey]
    exact hkeys ▸ h.keys
  size_le := (size_touch c key).trans_le h.size_le
  capacity_pos := h.capacity_pos

lemma Fits.insert (h : c.Fits) (hlacks : c.get? key = none) (hroom : c.size < c.capacity)
    (value : V) : (c.insert key value).Fits where
  keys := by
    have hnotMem : key ∉ c.slots.map Slot.key := by
      simpa [get?, slot?, List.find?_eq_none] using hlacks
    rw [Cache.insert, List.map_append, List.map_singleton, List.nodup_append]
    refine ⟨h.keys, List.nodup_singleton _, fun key' hkey' key'' hkey'' hsame => hnotMem ?_⟩
    obtain rfl : key'' = key := List.mem_singleton.mp hkey''
    exact hsame ▸ hkey'
  size_le := by
    rw [size, Cache.insert, List.length_append]
    exact hroom
  capacity_pos := h.capacity_pos

/-- One key is in one slot. -/
lemma Fits.length_filter_ne (h : c.Fits) {s : Slot K V} (hs : s ∈ c.slots) :
    (c.slots.filter fun t => t.key != s.key).length + 1 = c.size := by
  have hone : c.slots.countP (fun t => t.key == s.key) = 1 := by
    have hcount := List.count_eq_one_of_mem h.keys (List.mem_map_of_mem hs)
    rwa [List.count, List.countP_map] at hcount
  have hsplit := List.length_eq_countP_add_countP (fun t : Slot K V => t.key == s.key)
    (l := c.slots)
  have hnot : (c.slots.filter fun t => t.key != s.key).length =
      c.slots.countP fun t => decide ¬(t.key == s.key) = true := by
    rw [← List.countP_eq_length_filter]
    exact List.countP_congr fun t _ => by simp
  rw [size, hsplit, hone, hnot, Nat.add_comm]

/-- A full cache drops one entry to make room, any other one none. -/
lemma Fits.makeRoom_cases (h : c.Fits) :
    (c.makeRoom = (c, none) ∧ c.size < c.capacity) ∨
      ∃ s ∈ c.slots, c.size = c.capacity ∧
        c.makeRoom = ({ c with
          slots := c.slots.filter fun t => t.key != s.key
          evictions := c.evictions + 1 }, some s.key) := by
  rcases c.makeRoom_cases with ⟨hroom, hlt | hnil⟩ | ⟨s, hs, hfull, hroom⟩
  · exact .inl ⟨hroom, hlt⟩
  · refine .inl ⟨hroom, ?_⟩
    rw [size, hnil]
    exact h.capacity_pos
  · exact .inr ⟨s, hs, h.size_le.antisymm hfull, hroom⟩

/-! ### One step -/

/-- A stored value takes a free slot, or the one of the key that has to go. -/
lemma counted_stored (h : c.Fits) (hlacks : c.get? key = none) (value : V) :
    c.Counted [(.stored key value c.makeRoom.2 : CacheStep K V ε)]
      (c.makeRoom.1.insert key value) := by
  have hlacks' := get?_makeRoom_of_lacks hlacks
  rcases h.makeRoom_cases with ⟨hroom, hlt⟩ | ⟨s, hs, hfull, hroom⟩
  · rw [hroom]
    have hsize : (c.insert key value).size = c.size + 1 := List.length_append
    constructor
    case fits => exact h.insert hlacks hlt value
    case size => simpa using hsize
    case full => simpa using fun hfull => absurd hfull hlt.ne
    all_goals simp [Cache.insert]
  · rw [hroom] at hlacks' ⊢
    have hlength := h.length_filter_ne hs
    have hsize := h.size_le
    have hdropped : Fits { c with
        slots := c.slots.filter fun t => t.key != s.key
        evictions := c.evictions + 1 } := by
      refine ⟨h.keys.sublist (List.filter_sublist.map _), ?_, h.capacity_pos⟩
      change (c.slots.filter fun t => t.key != s.key).length ≤ c.capacity
      omega
    have hinserted : ({ c with
        slots := c.slots.filter fun t => t.key != s.key
        evictions := c.evictions + 1 }.insert key value).size = c.size := by
      rw [size, Cache.insert, List.length_append]
      exact hlength
    constructor
    case fits =>
      refine hdropped.insert hlacks' ?_ value
      change (c.slots.filter fun t => t.key != s.key).length < c.capacity
      omega
    case size => simpa using hinserted
    case full => exact fun _ => hinserted.trans hfull
    all_goals simp [Cache.insert]

lemma Moves.counted (hmoves : Moves c step c') (h : c.Fits) : c.Counted [step] c' := by
  have hno (n : UInt64) : n = n + UInt64.ofNat 0 := (UInt64.add_zero n).symm
  cases hmoves with
  | lacked => exact counted_of_size_eq h rfl rfl nofun (hno _) (hno _) rfl
  | looked => exact counted_of_size_eq (h.touch _) (size_touch c _) rfl nofun (hno _) (hno _) rfl
  | @found key =>
    exact counted_of_size_eq ⟨(h.touch key).keys, (h.touch key).size_le, h.capacity_pos⟩
      (size_touch c key) rfl nofun rfl (hno _) rfl
  | missed =>
    exact counted_of_size_eq ⟨h.keys, h.size_le, h.capacity_pos⟩ rfl rfl nofun (hno _) rfl rfl
  | failed => exact counted_of_size_eq h rfl rfl nofun (hno _) (hno _) rfl
  | overtaken =>
    exact counted_of_size_eq (h.touch _) (size_touch c _) rfl nofun (hno _) (hno _) rfl
  | stored hlacks => exact counted_stored h hlacks _

/-! ### Whole runs -/

lemma Trace.counted (htrace : Trace c steps c') (h : c.Fits) : c.Counted steps c' := by
  induction htrace with
  | nil => exact .refl h
  | cons hmoves _ ih =>
    have hfirst := hmoves.counted h
    exact hfirst.trans (ih hfirst.fits)

omit [DecidableEq K] in
/-- Counting from nothing, the counts are those of the steps as long as none wraps around. -/
lemma Counted.toNat_eq {capacity : ℕ} (h : (empty capacity).Counted steps c')
    (hhits : tally .found steps < UInt64.size) (hmisses : tally .missed steps < UInt64.size)
    (hdrops : CacheStep.drops steps < UInt64.size) :
    c'.hits.toNat = tally .found steps ∧ c'.misses.toNat = tally .missed steps ∧
      c'.evictions.toNat = CacheStep.drops steps := by
  have hfrom (n : ℕ) (hn : n < UInt64.size) : ((0 : UInt64) + UInt64.ofNat n).toNat = n := by
    rw [UInt64.zero_add]
    exact UInt64.toNat_ofNat_of_lt hn
  refine ⟨?_, ?_, ?_⟩
  · rw [h.hits]
    exact hfrom _ hhits
  · rw [h.misses]
    exact hfrom _ hmisses
  · rw [h.evictions]
    exact hfrom _ hdrops

end Cache

namespace CacheCall

variable [DecidableEq K]

/-- As long as no count wraps around, the hits and misses of a cache are all requests made of it,
and every miss is an entry that is held or was dropped, a failure, or a value that came too late.
Once an entry was dropped there is one in every slot, for good. -/
theorem runAll_counts (capacity : ℕ) (calls : List (CacheCall K V ε))
    (hhits : tally .found (stepsAll (.empty capacity : Cache K V) calls) < UInt64.size)
    (hmisses : tally .missed (stepsAll (.empty capacity : Cache K V) calls) < UInt64.size) :
    let start : Cache K V := .empty capacity
    let ran := runAll start calls
    let log := stepsAll start calls
    Cache.Trace start log ran.2 ∧
    ran.2.hits.toNat + ran.2.misses.toNat = CacheAnswer.requestsAll ran.1 ∧
    ran.2.misses.toNat = ran.2.size + ran.2.evictions.toNat + CacheAnswer.failuresAll ran.1 +
      tally .overtaken log ∧
    ∀ before between after c c', log = before ++ between ++ after →
      Cache.Trace start before c → Cache.Trace c between c' → 0 < c.evictions →
        c.size = max capacity 1 ∧ c'.size = max capacity 1 := by
  intro start ran log
  have htells := tells_stepsAll start calls
  have htrace := trace_stepsAll start calls
  have hcounted := htrace.counted (Cache.fits_empty capacity)
  have hstored : ran.2.size + CacheStep.drops log = tally .stored log := by
    have hsize := hcounted.size
    rwa [show start.size = 0 from rfl, Nat.zero_add] at hsize
  have hbalanced : tally .missed log =
      tally .failed log + tally .overtaken log + tally .stored log := htells.balanced
  have hdrops : CacheStep.drops log < UInt64.size := by
    change tally .missed log < UInt64.size at hmisses
    omega
  obtain ⟨hhits', hmisses', hevictions'⟩ : ran.2.hits.toNat = tally .found log ∧
      ran.2.misses.toNat = tally .missed log ∧ ran.2.evictions.toNat = CacheStep.drops log :=
    hcounted.toNat_eq hhits hmisses hdrops
  refine ⟨htrace, ?_, ?_, ?_⟩
  · rw [hhits', hmisses', htells.requests]
  · have hfailures : tally .failed log = CacheAnswer.failuresAll ran.1 := htells.failures
    rw [hmisses', hevictions', ← hfailures]
    omega
  · intro before between after c c' hlog hbefore hbetween hpos
    have hfirst := hbefore.counted (Cache.fits_empty capacity)
    have hsecond := hbetween.counted hfirst.fits
    have hdrops : 0 < CacheStep.drops before := by
      by_contra hzero
      rw [hfirst.evictions, Nat.eq_zero_of_not_pos hzero] at hpos
      exact absurd hpos (UInt64.lt_irrefl 0)
    have hfull := hfirst.full (.inl hdrops)
    refine ⟨hfull.trans hfirst.capacity, ?_⟩
    exact (hsecond.full (.inr hfull)).trans (hsecond.capacity.trans hfirst.capacity)

/-- Two slots: of six requests one finds its value, one fails, one is overtaken by a request inside
it, and one has another key dropped. -/
theorem runAll_counts_nested :
    let calls : List (CacheCall ℕ ℕ Unit) :=
      [.fetch 1 [] (.ok 10), .fetch 2 [.fetch 2 [] (.ok 20), .fetch 1 [] (.ok 11)] (.ok 21),
        .fetch 3 [] (.ok 30), .fetch 4 [] (.error ())]
    let start : Cache ℕ ℕ := .empty 2
    let ran := runAll start calls
    let log := stepsAll start calls
    (tally .found log < UInt64.size ∧ tally .missed log < UInt64.size) ∧
    (CacheAnswer.requestsAll ran.1 = 6 ∧ CacheAnswer.failuresAll ran.1 = 1 ∧
      tally .overtaken log = 1 ∧ ran.2.evictions = 1) ∧
    ran.2.hits.toNat + ran.2.misses.toNat = CacheAnswer.requestsAll ran.1 ∧
    ran.2.misses.toNat = ran.2.size + ran.2.evictions.toNat + CacheAnswer.failuresAll ran.1 +
      tally .overtaken log := by
  intro calls
  have hhits : tally .found (stepsAll (.empty 2 : Cache ℕ ℕ) calls) < UInt64.size := by
    decide +kernel
  have hmisses : tally .missed (stepsAll (.empty 2 : Cache ℕ ℕ) calls) < UInt64.size := by
    decide +kernel
  obtain ⟨_, hrequests, hbecome, _⟩ := runAll_counts 2 calls hhits hmisses
  refine ⟨⟨hhits, hmisses⟩, by decide +kernel, ?_, ?_⟩
  · exact hrequests
  · exact hbecome

end CacheCall

end Sightline
