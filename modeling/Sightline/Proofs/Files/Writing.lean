import Mathlib.Tactic
import Sightline.Files.Tree

/-!
# Files read after they were written

What is written to a path is read from it. On the way to the file nothing changes: every place a
path goes through is a directory, and a file is never put in place of one.
-/

namespace Sightline

namespace FileTree

variable {t t' : FileTree} {l m m' : Location} {entry : FileEntry} {path : FilePath}

lemma bind_eq_ok {ε β γ : Type} {x : Except ε β} {f : β → Except ε γ} {c : γ} :
    x >>= f = .ok c ↔ ∃ b, x = .ok b ∧ f b = .ok c := by
  cases x with
  | error e => exact ⟨nofun, nofun⟩
  | ok b => exact ⟨fun h => ⟨b, rfl, h⟩, fun ⟨_, hb, h⟩ => Except.ok.inj hb ▸ h⟩

/-! ### Putting something somewhere -/

lemma lookup_filter_ne {entries : List (Location × FileEntry)} (h : m ≠ l) :
    (entries.filter (·.1 ≠ l)).lookup m = entries.lookup m := by
  induction entries with
  | nil => rfl
  | cons e entries ih =>
    by_cases he : e.1 = l
    · have hm : (m == e.1) = false := beq_eq_false_iff_ne.mpr fun hme => h (hme.trans he)
      rw [List.filter_cons_of_neg (by simpa using he), List.lookup_cons, hm, ih]
    · rw [List.filter_cons_of_pos (by simpa using he), List.lookup_cons, List.lookup_cons, ih]

/-- Only what was put somewhere is changed. -/
lemma entry?_put_of_ne (h : m ≠ l) : FileTree.entry? (t.put l entry) m = t.entry? m := by
  have hm : (m == l) = false := beq_eq_false_iff_ne.mpr h
  rw [ entry?, entry?, put, List.lookup_cons, hm, lookup_filter_ne h]

lemma entry?_put_self (h : l.names ≠ []) :
    FileTree.entry? (t.put l entry) l = some entry := by
  rw [ entry?, if_neg (by simpa using h), put, List.lookup_cons, beq_self_eq_true]

/-! ### The way to a file -/

lemma find_eq_ok {found : Option FileEntry} (h : t.find l = .ok found) : t.entry? l = found := by
  rw [find] at h
  split at h
  · cases h
  · exact Except.ok.inj h

lemma find_put_of_ne (h : m ≠ l) : (t.put l entry).find m = t.find m := by
  rw [find, find, entry?_put_of_ne h]

/-- A step from a directory is still there when something was put at a place that is none. -/
lemma step_put (hl : t.entry? l ≠ some .directory) {s : PathStep} (h : t.step m s = .ok m') :
    (t.put l entry).step m s = .ok m' := by
  have hdirectory : t.find m = .ok (some .directory) := by
    obtain ⟨found, hfound, hstep⟩ := bind_eq_ok.mp h
    split at hstep
    · exact hfound
    · cases hstep
    · cases hstep
  have hne : m ≠ l := by
    rintro rfl
    exact hl (find_eq_ok hdirectory)
  rw [step, find_put_of_ne hne]
  exact h

lemma steps_put (hl : t.entry? l ≠ some .directory) {steps : List PathStep}
    (h : steps.foldlM t.step m = .ok m') : steps.foldlM (t.put l entry).step m = .ok m' := by
  induction steps generalizing m with
  | nil => exact h
  | cons s steps ih =>
    rw [List.foldlM_cons] at h ⊢
    obtain ⟨next, hnext, hrest⟩ := bind_eq_ok.mp h
    exact bind_eq_ok.mpr ⟨next, step_put hl hnext, ih hrest⟩

lemma locate_put (hl : t.entry? l ≠ some .directory) (h : t.locate path = .ok m) :
    (t.put l entry).locate path = .ok m := by
  rw [locate] at h ⊢
  split at h
  next hvalid => rw [if_pos hvalid, steps_put hl h]
  next => cases h

/-- All that a write does: it puts a file where the path leads, if no directory is there. -/
lemma write_eq_ok {contents : ByteArray} (h : t.write path contents = .ok t') :
    ∃ l found, t.locate path = .ok l ∧ path.endsWithSlash = false ∧ t.find l = .ok found ∧
      found ≠ some .directory ∧ t' = t.put l (.file contents) := by
  obtain ⟨l, hlocate, h⟩ := bind_eq_ok.mp h
  split at h
  next => cases h
  next hslash =>
    obtain ⟨found, hfind, h⟩ := bind_eq_ok.mp h
    split at h
    next => cases h
    next hnone =>
      exact ⟨l, found, hlocate, by simpa using hslash, hfind, fun heq => hnone heq,
        (Except.ok.inj h).symm⟩

/-- What was written is read. -/
theorem read_write {contents : ByteArray} (h : t.write path contents = .ok t') :
    t'.read path = .ok contents := by
  obtain ⟨l, found, hlocate, hslash, hfind, hnone, rfl⟩ := write_eq_ok h
  have hentry := find_eq_ok hfind
  have hl : t.entry? l ≠ some .directory := hentry ▸ hnone
  have hnames : l.names ≠ [] := by
    intro hempty
    simp [ entry?, hempty] at hl
  have hfound : (t.put l (.file contents)).find l = .ok (some (.file contents)) := by
    rw [find] at hfind ⊢
    split at hfind
    next => cases hfind
    next hlong => rw [if_neg hlong, entry?_put_self hnames]
  refine bind_eq_ok.mpr ⟨l, locate_put hl hlocate, bind_eq_ok.mpr ⟨_, hfound, ?_⟩⟩
  simp only [hslash, Bool.false_eq_true, if_false]
  rfl

lemma fromUTF8?_toUTF8 (text : String) : String.fromUTF8? text.toUTF8 = some text := by
  have hvalid : text.toUTF8.IsValidUTF8 := text.isValidUTF8
  rw [String.fromUTF8?, dif_pos hvalid]
  rfl

theorem readText_write {text : String} (h : t.write path text.toUTF8 = .ok t') :
    t'.readText path = .ok text := by
  refine bind_eq_ok.mpr ⟨_, read_write h, ?_⟩
  rw [fromUTF8?_toUTF8]
  rfl

end FileTree

end Sightline
