import Mathlib.Tactic
import Sightline.Mesh.Library
import Sightline.Proofs.Mesh.Ticks

/-!
# Caches that agree with a source

If all values come from one source, what a cache answers is what the source would have answered,
whatever was kept, dropped or never made before.
-/

namespace Sightline

namespace Cache

variable {K V ε σ : Type}

/-- All that is held is what a source of values has for its key. In particular nothing is held
under a key that the source has no value for. -/
def Agrees (c : Cache K V) (source : K → Except ε V) : Prop :=
  ∀ s ∈ c.slots, source s.key = .ok s.value

lemma agrees_empty (capacity : ℕ) (source : K → Except ε V) :
    (empty capacity : Cache K V).Agrees source := fun _ hs => absurd hs List.not_mem_nil

variable {c : Cache K V} {source : K → Except ε V} {key : K} {value : V}

namespace Agrees

lemma insert (h : c.Agrees source) (hvalue : source key = .ok value) :
    (c.insert key value).Agrees source := by
  intro s hs
  rcases List.mem_append.mp hs with hs | hs
  · exact h s hs
  · rw [List.mem_singleton.mp hs]
    exact hvalue

variable [DecidableEq K]

lemma get? (h : c.Agrees source) (hget : c.get? key = some value) : source key = .ok value := by
  obtain ⟨s, hs, rfl⟩ := Option.map_eq_some_iff.mp hget
  have hkey : s.key = key := by simpa using List.find?_some hs
  exact hkey ▸ h s (List.mem_of_find?_eq_some hs)

lemma touch (h : c.Agrees source) (key : K) : (c.touch key).Agrees source := by
  intro s hs
  obtain ⟨t, ht, rfl⟩ := List.mem_map.mp hs
  by_cases hkey : t.key = key
  · simpa [hkey] using h t ht
  · simpa [hkey] using h t ht

lemma makeRoom (h : c.Agrees source) : c.makeRoom.1.Agrees source := by
  unfold Cache.makeRoom
  split
  · split
    · exact fun s hs => h s (List.mem_of_mem_filter hs)
    · exact h
  · exact h

/-- The value held already is the one that was generated again. -/
lemma store (h : c.Agrees source) (hvalue : source key = .ok value) :
    (c.store key value).1 = value ∧ (c.store key value).2.1.Agrees source := by
  cases hget : c.get? key with
  | none =>
    have hstore : c.store key value = (value, c.makeRoom.1.insert key value, c.makeRoom.2) := by
      simp [Cache.store, lookup_of_none hget]
    rw [hstore]
    exact ⟨rfl, h.makeRoom.insert hvalue⟩
  | some first =>
    rw [store_of_some hget]
    exact ⟨Except.ok.inj ((h.get? hget).symm.trans hvalue), h.touch key⟩

/-- It does not matter whether a value is found or generated, as long as generating it leaves
nothing in the cache that the source does not have. -/
lemma fetch (h : c.Agrees source) {generate : Cache K V → Except ε V × Cache K V × σ}
    (hgenerate : ∀ c, c.Agrees source →
      (generate c).1 = source key ∧ (generate c).2.1.Agrees source) :
    (c.fetch key generate).answer = source key ∧ (c.fetch key generate).cache.Agrees source := by
  cases hget : c.get? key with
  | some value =>
    simp only [Cache.fetch, lookup_of_some hget]
    exact ⟨(h.get? hget).symm, h.touch key⟩
  | none =>
    obtain ⟨hanswer, hagrees⟩ := hgenerate { c with misses := c.misses + 1 } h
    simp only [Cache.fetch, lookup_of_none hget]
    rcases hleft : generate { c with misses := c.misses + 1 } with ⟨e | value, c', left⟩
    · rw [hleft] at hanswer hagrees
      exact ⟨hanswer, hagrees⟩
    · rw [hleft] at hanswer hagrees
      obtain ⟨hvalue, hstored⟩ := Agrees.store hagrees hanswer.symm
      exact ⟨(congrArg Except.ok hvalue).trans hanswer, hstored⟩

end Agrees

end Cache

/-! ### Libraries -/

/-- Where meshes are taken from if neither time nor history matters. -/
abbrev MeshSource := Shape → DetailLevel → Except MeshError (Mesh Float32)

/-- What a source has for a key. -/
def MeshSource.ofKey (source : MeshSource) (key : MeshKey) : Except MeshError (Mesh Float32) :=
  source key.shape key.detail

/-- Whatever time it is, a generator answers as a source does. -/
def MeshGenerator.Gives (generator : MeshGenerator) (source : MeshSource) : Prop :=
  ∀ shape detail clock, (generator shape detail clock).1 = source shape detail

lemma MeshLibrary.meshFor_of_gives {lib : MeshLibrary} {source : MeshSource}
    (hgives : lib.generator.Gives source) {cache : MeshCache} (h : cache.Agrees source.ofKey)
    (shape : Shape) (cls : DetailClass) (clock : Clock) :
    (lib.meshFor shape cls cache clock).answer = source shape (lib.detail.forClass cls) ∧
      (lib.meshFor shape cls cache clock).cache.Agrees source.ofKey :=
  h.fetch fun _ hagrees => ⟨hgives shape _ clock, hagrees⟩

end Sightline
