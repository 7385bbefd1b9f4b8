import Mathlib.Data.List.Sort
import Mathlib.Tactic
import Sightline.Mesh.Cache

/-!
# What ticks tell

As long as no tick is taken twice, the ticks of a cache put its entries in one order, from the one
used last to the one used longest ago. Using an entry or storing a new one puts it in front; making
room drops the last one.
-/

namespace Sightline

variable {K V : Type}

/-- What a slot holds, without its tick. -/
def Slot.entry (s : Slot K V) : K × V := (s.key, s.value)

namespace Cache

/-- The slots, the one used last first. -/
def byUse (c : Cache K V) : List (Slot K V) :=
  c.slots.mergeSort fun s t => t.lastUsed ≤ s.lastUsed

/-- The entries, the one used last first. -/
def recency (c : Cache K V) : List (K × V) := c.byUse.map Slot.entry

/-- No key and no tick is in two slots, no tick is from the future, and there are not too many
slots. -/
structure Sound (c : Cache K V) : Prop where
  keys : (c.slots.map Slot.key).Nodup
  ticks : (c.slots.map Slot.lastUsed).Nodup
  past : ∀ s ∈ c.slots, s.lastUsed ≤ c.tick
  size_le : c.size ≤ c.capacity
  capacity_pos : 0 < c.capacity

variable {c : Cache K V} {key : K} {value : V}

lemma sound_empty (capacity : ℕ) : (empty capacity : Cache K V).Sound where
  keys := List.nodup_nil
  ticks := List.nodup_nil
  past := by simp [empty]
  size_le := by simp [empty, size]
  capacity_pos := by simp [empty]

lemma byUse_perm (c : Cache K V) : c.byUse.Perm c.slots := List.mergeSort_perm _ _

@[simp] lemma length_recency (c : Cache K V) : c.recency.length = c.size := by
  simp [recency, size, c.byUse_perm.length_eq]

lemma Sound.byUse_pairwise (h : c.Sound) :
    c.byUse.Pairwise fun s t => t.lastUsed < s.lastUsed := by
  have hsorted : c.byUse.Pairwise fun s t => t.lastUsed ≤ s.lastUsed := by
    let le (s t : Slot K V) : Bool := decide (t.lastUsed ≤ s.lastUsed)
    have htrans : ∀ r s t, le r s → le s t → le r t := by
      intro r s t hrs hst
      simp only [le, decide_eq_true_eq] at hrs hst ⊢
      exact UInt64.le_trans hst hrs
    have htotal : ∀ s t, le s t || le t s := by
      intro s t
      simpa [le] using UInt64.le_total t.lastUsed s.lastUsed
    simpa [byUse, le] using List.pairwise_mergeSort htrans htotal c.slots
  have hne : c.byUse.Pairwise fun s t => s.lastUsed ≠ t.lastUsed :=
    List.pairwise_map.mp ((c.byUse_perm.map _).nodup_iff.mpr h.ticks)
  exact (hsorted.and hne).imp fun ⟨hle, hne⟩ => UInt64.lt_of_le_of_ne hle hne.symm

/-- Ticks leave no choice how to order the slots. -/
lemma Sound.byUse_eq (h : c.Sound) {slots : List (Slot K V)} (hperm : slots.Perm c.slots)
    (hsorted : slots.Pairwise fun s t => t.lastUsed < s.lastUsed) : c.byUse = slots := by
  refine List.Perm.eq_of_pairwise ?_ h.byUse_pairwise hsorted (c.byUse_perm.trans hperm.symm)
  intro s t _ _ hst hts
  exact absurd (UInt64.lt_trans hst hts) (UInt64.lt_irrefl _)

lemma mem_recency {entry : K × V} : entry ∈ c.recency ↔ ∃ s ∈ c.slots, s.entry = entry := by
  simp [recency, c.byUse_perm.mem_iff]

/-- A key that is held is in one slot. -/
lemma Sound.exists_slot (h : c.Sound) (hmem : (key, value) ∈ c.recency) :
    ∃ before s after, c.slots = before ++ s :: after ∧ s.entry = (key, value) ∧
      ∀ t ∈ before ++ after, t.key ≠ key := by
  obtain ⟨s, hs, hentry⟩ := mem_recency.mp hmem
  obtain ⟨before, after, hslots⟩ := List.append_of_mem hs
  refine ⟨before, s, after, hslots, hentry, fun t ht hkey => ?_⟩
  have hkeys : ((s :: (before ++ after)).map Slot.key).Nodup :=
    ((hslots ▸ List.perm_middle).map Slot.key).nodup_iff.mp h.keys
  have hsame : s.key = t.key := (congrArg Prod.fst hentry).trans hkey.symm
  exact (List.nodup_cons.mp hkeys).1 (hsame ▸ List.mem_map_of_mem ht)

/-! ### The slot that goes -/

lemma oldest?_eq_none_iff {slots : List (Slot K V)} : oldest? slots = none ↔ slots = [] := by
  cases slots with
  | nil => simp [oldest?]
  | cons s rest =>
    simp only [oldest?, reduceCtorEq, iff_false]
    cases oldest? rest with
    | none => simp
    | some t => by_cases hle : s.lastUsed ≤ t.lastUsed <;> simp [hle]

lemma mem_and_le_of_oldest? {slots : List (Slot K V)} {s : Slot K V} (h : oldest? slots = some s) :
    s ∈ slots ∧ ∀ t ∈ slots, s.lastUsed ≤ t.lastUsed := by
  induction slots generalizing s with
  | nil => simp [oldest?] at h
  | cons first rest ih =>
    rw [oldest?] at h
    cases hrest : oldest? rest with
    | none =>
      rw [hrest] at h
      cases h
      simp [oldest?_eq_none_iff.mp hrest]
    | some t =>
      obtain ⟨ht, hleast⟩ := ih hrest
      simp only [hrest] at h
      split_ifs at h with hle
      · cases h
        refine ⟨List.mem_cons_self, fun u hu => ?_⟩
        rcases List.mem_cons.mp hu with rfl | hu
        · exact UInt64.le_refl _
        · exact UInt64.le_trans hle (hleast u hu)
      · cases h
        refine ⟨List.mem_cons_of_mem _ ht, fun u hu => ?_⟩
        rcases List.mem_cons.mp hu with rfl | hu
        · exact (UInt64.le_total _ _).resolve_right hle
        · exact hleast u hu

/-- Where no tick is in two slots, one slot is the oldest. -/
lemma oldest?_eq_some_iff {slots : List (Slot K V)} {s : Slot K V}
    (hticks : (slots.map Slot.lastUsed).Nodup) :
    oldest? slots = some s ↔ s ∈ slots ∧ ∀ t ∈ slots, s.lastUsed ≤ t.lastUsed := by
  refine ⟨mem_and_le_of_oldest?, fun ⟨hs, hleast⟩ => ?_⟩
  cases hold : oldest? slots with
  | none => simp [oldest?_eq_none_iff.mp hold] at hs
  | some t =>
    obtain ⟨ht, hleast'⟩ := mem_and_le_of_oldest? hold
    have htick : t.lastUsed = s.lastUsed := UInt64.le_antisymm (hleast' s hs) (hleast t ht)
    rw [List.inj_on_of_nodup_map hticks ht hs htick]

lemma oldest?_perm {slots slots' : List (Slot K V)} (hticks : (slots.map Slot.lastUsed).Nodup)
    (hperm : slots'.Perm slots) : oldest? slots' = oldest? slots := by
  have hticks' := ((hperm.map Slot.lastUsed).nodup_iff).mpr hticks
  ext s
  simp only [oldest?_eq_some_iff hticks, oldest?_eq_some_iff hticks', hperm.mem_iff]

/-- The last slot in order is the one that goes. -/
lemma Sound.exists_last (h : c.Sound) (hpos : 0 < c.size) :
    ∃ kept s, c.byUse = kept ++ [s] ∧ oldest? c.slots = some s := by
  obtain hnil | ⟨kept, s, hbyUse⟩ := List.eq_nil_or_concat c.byUse
  · rw [size, ← c.byUse_perm.length_eq, hnil] at hpos
    exact absurd hpos (Nat.lt_irrefl 0)
  rw [List.concat_eq_append] at hbyUse
  have hsorted := hbyUse ▸ h.byUse_pairwise
  refine ⟨kept, s, hbyUse, (oldest?_eq_some_iff h.ticks).mpr ⟨?_, fun t ht => ?_⟩⟩
  · rw [← c.byUse_perm.mem_iff, hbyUse]
    exact List.mem_append_right _ (List.mem_singleton_self s)
  · rw [← c.byUse_perm.mem_iff, hbyUse] at ht
    rcases List.mem_append.mp ht with ht | ht
    · exact UInt64.le_of_lt
        ((List.pairwise_append.mp hsorted).2.2 t ht s (List.mem_singleton_self s))
    · rw [List.mem_singleton.mp ht]
      exact UInt64.le_refl _

/-! ### The slot in front -/

lemma toNat_tick_succ (htick : c.tick.toNat + 1 < UInt64.size) :
    (c.tick + 1).toNat = c.tick.toNat + 1 := by
  rw [UInt64.toNat_add]
  exact Nat.mod_eq_of_lt htick

lemma tick_lt_succ (htick : c.tick.toNat + 1 < UInt64.size) : c.tick < c.tick + 1 := by
  rw [UInt64.lt_iff_toNat_lt, toNat_tick_succ htick]
  exact Nat.lt_succ_self _

/-- What becomes of a cache when its slots are those of `slots`, which were there before, and in
front of them `s`, which takes the next tick. -/
structure Fronted (c c' : Cache K V) (s : Slot K V) (slots : List (Slot K V)) : Prop where
  perm : (s :: slots).Perm c'.slots
  sublist : slots.Sublist c.byUse
  keys : ∀ t ∈ slots, t.key ≠ s.key
  lastUsed : s.lastUsed = c.tick + 1
  tick : c'.tick = c.tick + 1
  capacity : c'.capacity = c.capacity
  room : slots.length < c.capacity

lemma Fronted.sound {c' : Cache K V} {s : Slot K V} {slots : List (Slot K V)}
    (f : c.Fronted c' s slots) (h : c.Sound) (htick : c.tick.toNat + 1 < UInt64.size) :
    c'.Sound := by
  have hslots : ∀ t ∈ slots, t.lastUsed ≤ c.tick := fun t ht =>
    h.past t (c.byUse_perm.subset (f.sublist.subset ht))
  constructor
  case keys =>
    rw [← (f.perm.map _).nodup_iff, List.map_cons, List.nodup_cons]
    refine ⟨?_, (((c.byUse_perm.map _).nodup_iff.mpr h.keys)).sublist (f.sublist.map _)⟩
    simpa using f.keys
  case ticks =>
    rw [← (f.perm.map _).nodup_iff, List.map_cons, List.nodup_cons]
    refine ⟨?_, (((c.byUse_perm.map _).nodup_iff.mpr h.ticks)).sublist (f.sublist.map _)⟩
    intro hmem
    obtain ⟨t, ht, hsame⟩ := List.mem_map.mp hmem
    have hlt := UInt64.lt_of_le_of_lt (hslots t ht) (tick_lt_succ htick)
    rw [hsame, f.lastUsed] at hlt
    exact UInt64.lt_irrefl _ hlt
  case past =>
    intro t ht
    rw [f.tick]
    rcases List.mem_cons.mp (f.perm.mem_iff.mpr ht) with rfl | ht
    · rw [f.lastUsed]
      exact UInt64.le_refl _
    · exact UInt64.le_of_lt (UInt64.lt_of_le_of_lt (hslots t ht) (tick_lt_succ htick))
  case size_le =>
    rw [size, ← f.perm.length_eq, f.capacity]
    exact f.room
  case capacity_pos => exact f.capacity ▸ h.capacity_pos

lemma Fronted.recency_eq {c' : Cache K V} {s : Slot K V} {slots : List (Slot K V)}
    (f : c.Fronted c' s slots) (h : c.Sound) (htick : c.tick.toNat + 1 < UInt64.size) :
    c'.recency = s.entry :: slots.map Slot.entry := by
  have hsorted : (s :: slots).Pairwise fun s t => t.lastUsed < s.lastUsed := by
    refine List.pairwise_cons.mpr ⟨fun t ht => ?_, h.byUse_pairwise.sublist f.sublist⟩
    have hpast := h.past t (c.byUse_perm.subset (f.sublist.subset ht))
    rw [f.lastUsed]
    exact UInt64.lt_of_le_of_lt hpast (tick_lt_succ htick)
  rw [recency, (f.sound h htick).byUse_eq f.perm hsorted, List.map_cons]

/-- A cache took `n` ticks and is as sound as before. -/
structure Took (c c' : Cache K V) (n : ℕ) : Prop where
  sound : c'.Sound
  capacity : c'.capacity = c.capacity
  tick : c'.tick.toNat = c.tick.toNat + n

lemma Fronted.took {c' : Cache K V} {s : Slot K V} {slots : List (Slot K V)}
    (f : c.Fronted c' s slots) (h : c.Sound) (htick : c.tick.toNat + 1 < UInt64.size) :
    c.Took c' 1 where
  sound := f.sound h htick
  capacity := f.capacity
  tick := by rw [f.tick, toNat_tick_succ htick]

/-- Counting hits and misses is no use of an entry. -/
lemma Took.counted {c' : Cache K V} {n : ℕ} (h : c.Took c' n) (hits misses : UInt64) :
    c.Took { c' with hits := hits, misses := misses } n where
  sound := ⟨h.sound.keys, h.sound.ticks, h.sound.past, h.sound.size_le, h.sound.capacity_pos⟩
  capacity := h.capacity
  tick := h.tick

lemma Took.refl (h : c.Sound) : c.Took c 0 := ⟨h, rfl, rfl⟩

lemma Took.trans {c' c'' : Cache K V} {m n : ℕ} (h : c.Took c' m) (h' : c'.Took c'' n) :
    c.Took c'' (m + n) where
  sound := h'.sound
  capacity := h'.capacity.trans h.capacity
  tick := by rw [h'.tick, h.tick, Nat.add_assoc]

variable [DecidableEq K]

/-! ### Calls -/

lemma Sound.get?_eq_some_iff (h : c.Sound) :
    c.get? key = some value ↔ (key, value) ∈ c.recency := by
  constructor
  · intro hget
    obtain ⟨s, hs, rfl⟩ := Option.map_eq_some_iff.mp hget
    have hkey : s.key = key := by simpa using List.find?_some hs
    exact mem_recency.mpr ⟨s, List.mem_of_find?_eq_some hs, by rw [Slot.entry, hkey]⟩
  · intro hmem
    obtain ⟨before, s, after, hslots, hentry, hothers⟩ := h.exists_slot hmem
    obtain ⟨rfl, rfl⟩ := Prod.mk.inj hentry
    have hbefore : before.find? (·.key == s.key) = none := by
      simp only [List.find?_eq_none, beq_iff_eq]
      exact fun t ht => hothers t (List.mem_append_left _ ht)
    simp [get?, slot?, hslots, List.find?_append, hbefore]

lemma get?_eq_none_iff : c.get? key = none ↔ ∀ value, (key, value) ∉ c.recency := by
  simp only [get?, slot?, Option.map_eq_none_iff, List.find?_eq_none, beq_iff_eq, mem_recency,
    not_exists, not_and, Slot.entry, Prod.mk.injEq]
  constructor
  · intro hnone value s hs hkey
    exact absurd hkey (hnone s hs)
  · intro hlacks s hs hkey
    exact hlacks s.value s hs hkey rfl

lemma fronted_touch (h : c.Sound) (hmem : (key, value) ∈ c.recency) :
    c.Fronted (c.touch key) ⟨key, value, c.tick + 1⟩ (c.byUse.filter (·.key ≠ key)) := by
  obtain ⟨before, s, after, hslots, hentry, hothers⟩ := h.exists_slot hmem
  obtain ⟨rfl, rfl⟩ := Prod.mk.inj hentry
  have hfilter : c.slots.filter (·.key ≠ s.key) = before ++ after := by
    rw [hslots, List.filter_append, List.filter_cons_of_neg (by simp), ← List.filter_append,
      List.filter_eq_self]
    simpa using hothers
  have hkept : (c.byUse.filter (·.key ≠ s.key)).Perm (before ++ after) :=
    hfilter ▸ c.byUse_perm.filter _
  have htouch : (c.touch s.key).slots = before ++ { s with lastUsed := c.tick + 1 } :: after := by
    have hsame : ∀ l : List (Slot K V), (∀ t ∈ l, t.key ≠ s.key) →
        l.map (fun t => if t.key == s.key then { t with lastUsed := c.tick + 1 } else t) = l := by
      intro l hl
      refine (List.map_congr_left fun t ht => ?_).trans (List.map_id l)
      simp [hl t ht]
    rw [touch, hslots, List.map_append, List.map_cons,
      hsame before fun t ht => hothers t (List.mem_append_left _ ht),
      hsame after fun t ht => hothers t (List.mem_append_right _ ht)]
    simp
  constructor
  case perm => exact htouch ▸ (hkept.cons _).trans List.perm_middle.symm
  case sublist => exact List.filter_sublist
  case keys => simp
  case lastUsed => rfl
  case tick => rfl
  case capacity => rfl
  case room =>
    have hsize := h.size_le
    rw [size, hslots, List.length_append, List.length_cons] at hsize
    rw [hkept.length_eq, List.length_append]
    omega

lemma fronted_insert (value : V) (hnone : c.get? key = none) (hroom : c.size < c.capacity) :
    c.Fronted (c.insert key value) ⟨key, value, c.tick + 1⟩ c.byUse where
  perm := (c.byUse_perm.cons _).trans (List.perm_append_singleton _ _).symm
  sublist := List.Sublist.refl _
  keys := by
    intro t ht hkey
    have hmem := mem_recency.mpr ⟨t, c.byUse_perm.mem_iff.mp ht, rfl⟩
    rw [Slot.entry, hkey] at hmem
    exact get?_eq_none_iff.mp hnone t.value hmem
  lastUsed := rfl
  tick := rfl
  capacity := rfl
  room := by rwa [c.byUse_perm.length_eq]

lemma Sound.perm_filter_of_byUse (h : c.Sound) {kept : List (Slot K V)} {s : Slot K V}
    (hbyUse : c.byUse = kept ++ [s]) : kept.Perm (c.slots.filter (·.key != s.key)) := by
  have hkeys := (c.byUse_perm.map Slot.key).nodup_iff.mpr h.keys
  rw [hbyUse, List.map_append, List.nodup_append] at hkeys
  have hfilter : c.byUse.filter (·.key != s.key) = kept := by
    rw [hbyUse, List.filter_append, List.filter_eq_self.mpr, List.filter_cons_of_neg (by simp),
      List.filter_nil, List.append_nil]
    intro t ht
    simpa using hkeys.2.2 t.key (List.mem_map_of_mem ht) s.key (by simp)
  exact hfilter ▸ c.byUse_perm.filter _

/-- A full cache drops the entry that was used longest ago. -/
lemma Sound.makeRoom (h : c.Sound) (hfull : c.capacity ≤ c.size) :
    ∃ old, c.recency = c.makeRoom.1.recency ++ [old] ∧ c.makeRoom.2 = some old.1 ∧
      c.makeRoom.1.Sound ∧ c.makeRoom.1.tick = c.tick ∧ c.makeRoom.1.capacity = c.capacity := by
  obtain ⟨kept, s, hbyUse, hold⟩ := h.exists_last (h.capacity_pos.trans_le hfull)
  have hroom : c.makeRoom =
      ({ c with slots := c.slots.filter (·.key != s.key), evictions := c.evictions + 1 },
        some s.key) := by
    simp [Cache.makeRoom, hfull, hold]
  have hsub : (c.slots.filter (·.key != s.key)).Sublist c.slots := List.filter_sublist
  have hsound : c.makeRoom.1.Sound := by
    rw [hroom]
    exact {
      keys := h.keys.sublist (hsub.map _)
      ticks := h.ticks.sublist (hsub.map _)
      past := fun t ht => h.past t (hsub.subset ht)
      size_le := hsub.length_le.trans h.size_le
      capacity_pos := h.capacity_pos }
  have hkept : c.makeRoom.1.byUse = kept := by
    have hsorted := hbyUse ▸ h.byUse_pairwise
    refine hsound.byUse_eq ?_ (List.pairwise_append.mp hsorted).1
    rw [hroom]
    exact h.perm_filter_of_byUse hbyUse
  refine ⟨s.entry, ?_, by rw [hroom]; rfl, hsound, by rw [hroom], by rw [hroom]⟩
  rw [recency, recency, hkept, hbyUse, List.map_append]
  rfl

/-- A key that is found becomes the one used last. -/
lemma Sound.touch (h : c.Sound) (hmem : (key, value) ∈ c.recency)
    (htick : c.tick.toNat + 1 < UInt64.size) :
    c.Took (c.touch key) 1 ∧
      (c.touch key).recency = (key, value) :: c.recency.filter (·.1 ≠ key) := by
  have f := fronted_touch h hmem
  refine ⟨f.took h htick, ?_⟩
  rw [f.recency_eq h htick, recency, List.filter_map]
  rfl

lemma Sound.insert (h : c.Sound) (value : V) (hnone : c.get? key = none)
    (hroom : c.size < c.capacity) (htick : c.tick.toNat + 1 < UInt64.size) :
    c.Took (c.insert key value) 1 ∧ (c.insert key value).recency = (key, value) :: c.recency := by
  have f := fronted_insert value hnone hroom
  exact ⟨f.took h htick, f.recency_eq h htick⟩

lemma lookup_of_some (hget : c.get? key = some value) :
    c.lookup key = (some value, c.touch key) := by simp [lookup, hget]

lemma lookup_of_none (hget : c.get? key = none) : c.lookup key = (none, c) := by
  simp [lookup, hget]

lemma store_of_some {first : V} (hget : c.get? key = some first) :
    c.store key value = (first, c.touch key, none) := by simp [store, lookup_of_some hget]

/-- A new entry joins the others where there is room. -/
lemma Sound.store_of_room (h : c.Sound) (hget : c.get? key = none) (hroom : c.size < c.capacity)
    (htick : c.tick.toNat + 1 < UInt64.size) :
    ∃ c', c.store key value = (value, c', none) ∧ c.Took c' 1 ∧
      c'.recency = (key, value) :: c.recency := by
  obtain ⟨htook, hrecency⟩ := h.insert value hget hroom htick
  refine ⟨_, ?_, htook, hrecency⟩
  simp [store, lookup_of_none hget, Cache.makeRoom, Nat.not_le.mpr hroom]

/-- A new entry takes the place of the one used longest ago where there is no room. -/
lemma Sound.store_of_full (h : c.Sound) (hget : c.get? key = none) (hfull : c.capacity ≤ c.size)
    (htick : c.tick.toNat + 1 < UInt64.size) :
    ∃ c' kept old, c.recency = kept ++ [old] ∧ c.store key value = (value, c', some old.1) ∧
      c.Took c' 1 ∧ c'.recency = (key, value) :: kept := by
  obtain ⟨old, hrecency, hold, hsound, htick', hcapacity⟩ := h.makeRoom hfull
  have hget' : c.makeRoom.1.get? key = none := by
    rw [get?_eq_none_iff] at hget ⊢
    intro value hmem
    exact hget value (hrecency ▸ List.mem_append_left _ hmem)
  have hroom : c.makeRoom.1.size < c.makeRoom.1.capacity := by
    have hsize := congrArg List.length hrecency
    rw [List.length_append, length_recency, length_recency, List.length_singleton] at hsize
    have := h.size_le
    omega
  obtain ⟨htook, hfront⟩ := hsound.insert value hget' hroom (htick' ▸ htick)
  refine ⟨_, _, old, hrecency, ?_, ?_, hfront⟩
  · simp [store, lookup_of_none hget, hold]
  · exact ⟨htook.sound, htook.capacity.trans hcapacity, htick' ▸ htook.tick⟩

end Cache

end Sightline
