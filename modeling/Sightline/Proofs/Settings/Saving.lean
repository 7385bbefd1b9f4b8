import Mathlib.Tactic
import Sightline.Proofs.Files.Writing
import Sightline.Proofs.Settings.RoundTrip
import Sightline.Settings.Files

/-!
# Settings kept in files

RON can hold all settings, and TOML all but counts beyond its integers. Settings that were saved are
loaded again, and settings that cannot be saved leave the files as they were.
-/

namespace Sightline

namespace Settings

variable {s : Settings} {settings : List Setting} {secs : List SettingsSection} {t t' : FileTree}
  {path text : String} {format : SettingsFormat}

/-! ### What TOML cannot hold -/

lemma mapM_eq_none {β γ : Type} {f : β → Option γ} {bs : List β} :
    bs.mapM f = none ↔ ∃ b ∈ bs, f b = none := by
  induction bs with
  | nil => simp
  | cons b bs ih =>
    cases hb : f b with
    | none => simp [hb]
    | some c =>
      cases hbs : bs.mapM f with
      | none => simpa [hb, hbs] using ih.mp hbs
      | some cs =>
        have hnone : ¬ ∃ b ∈ bs, f b = none := fun h => by simpa [hbs] using ih.mpr h
        simpa [hb, hbs] using hnone

lemma toEntries?_eq_none :
    toEntries? settings s = none ↔ ∃ setting ∈ settings, setting.toToml? s = none := by
  simp [toEntries?, mapM_eq_none]

lemma toToml?_eq_none :
    s.toToml? = none ↔ (∃ setting ∈ plainSettings, setting.toToml? s = none) ∨
      ∃ sec ∈ sections, ∃ setting ∈ sec.settings, setting.toToml? s = none := by
  have hsections : sections.mapM (fun sec => (toEntries? sec.settings s).map fun entries =>
      (sec.key, TomlValue.table entries)) = none ↔
      ∃ sec ∈ sections, ∃ setting ∈ sec.settings, setting.toToml? s = none := by
    simp [mapM_eq_none, toEntries?_eq_none]
  rw [← toEntries?_eq_none, ← hsections, toToml?]
  generalize toEntries? plainSettings s = plain
  generalize sections.mapM (m := Option) _ = tables
  cases plain <;> cases tables <;> simp

lemma make_toToml? {β : Type} (key : String) (spelling : Spelling β) (get : Settings → β)
    (set : Settings → β → Settings) (s : Settings) :
    (Setting.make key spelling get set).toToml? s = spelling.toToml? (get s) := rfl

/-- TOML holds all settings but counts beyond its greatest integer. -/
theorem render?_toml_eq_none :
    s.render? .toml = none ↔ ∃ n ∈ [s.budget.windowMs, s.cache.capacity, s.limits.maxHits,
      s.limits.perPart, s.limits.perGroup], TomlValue.maxInteger < n.toNat := by
  have hnone : s.render? .toml = none ↔ s.toToml? = none := Option.map_eq_none_iff
  rw [hnone, toToml?_eq_none]
  -- every spelling but that of counts can be written
  have hflag (b : Bool) : Spelling.flag.toToml? b ≠ none := Option.some_ne_none _
  have hnumber (x : Float32) : Spelling.number.toToml? x ≠ none := Option.some_ne_none _
  have htriple (v : Vec3 Float32) : Spelling.triple.toToml? v ≠ none := Option.some_ne_none _
  have hchoice {β : Type} (all : List β) (word : β → String) (b : β) :
      (Spelling.choice all word).toToml? b ≠ none := Option.some_ne_none _
  simp only [plainSettings, sections, budgetSection, limitsSection, tolerancesSection,
    detailSection, cacheSection, cullingSection, levelSpelling, make_toToml?, List.mem_cons,
    List.not_mem_nil, exists_eq_or_imp, exists_eq_left, hflag, hnumber, htriple, hchoice,
    Spelling.count_toToml?_eq_none, or_false, false_or]
  tauto

/-! ### Files -/

lemma run_writeText : (writeText path text).run.run t =
    match t.write (.ofText path) text.toUTF8 with
    | .ok t' => (.ok (), t')
    | .error fault => (.error (.file fault), t) := by
  have hread : (writeText path text).run.run t =
      (match t.write (.ofText path) text.toUTF8 with
        | .ok t' => set t'
        | .error fault => throw (SettingsError.file fault) : OnFiles Unit).run.run t := rfl
  rw [hread]
  cases t.write (.ofText path) text.toUTF8 <;> rfl

lemma run_writeText_eq_ok : (writeText path text).run.run t = (.ok (), t') ↔
    t.write (.ofText path) text.toUTF8 = .ok t' := by
  rw [run_writeText]
  cases t.write (.ofText path) text.toUTF8 <;> constructor <;> rintro ⟨⟩ <;> rfl

lemma save_of_format (h : SettingsFormat.ofPath? path = some format) :
    s.save path = match s.render? format with
      | some text => writeText path text
      | none => throw .serialize := by
  rw [save, formatOf, h]
  rfl

/-- A file is only touched when there is a text to write. -/
lemma run_save_of_unsupported (h : SettingsFormat.ofPath? path = none) :
    (s.save path).run.run t = (.error (.unsupportedFormat path), t) := by
  rw [save, formatOf, h]
  rfl

lemma run_save_of_no_text (hformat : SettingsFormat.ofPath? path = some format)
    (h : s.render? format = none) : (s.save path).run.run t = (.error .serialize, t) := by
  rw [save_of_format hformat, h]
  rfl

/-- Settings are saved if a format is known that can hold them, and the file can be written. -/
theorem run_save_eq_ok :
    (s.save path).run.run t = (.ok (), t') ↔ ∃ format text,
      SettingsFormat.ofPath? path = some format ∧ s.render? format = some text ∧
        t.write (.ofText path) text.toUTF8 = .ok t' := by
  constructor
  · intro hsave
    cases hformat : SettingsFormat.ofPath? path with
    | none =>
      rw [run_save_of_unsupported hformat] at hsave
      cases hsave
    | some format =>
      cases htext : s.render? format with
      | none =>
        rw [run_save_of_no_text hformat htext] at hsave
        cases hsave
      | some text =>
        rw [save_of_format hformat, htext] at hsave
        exact ⟨format, text, rfl, htext, run_writeText_eq_ok.mp hsave⟩
  · rintro ⟨format, text, hformat, htext, hwrite⟩
    rw [save_of_format hformat, htext]
    exact run_writeText_eq_ok.mpr hwrite

lemma parse?_of_render? (h : s.IsDefined) (htext : s.render? format = some text) :
    parse? format text = some s := by
  cases format with
  | toml => exact parse?_toml h htext
  | ron =>
    obtain rfl : Ron.valueText 0 s.toRon = text := Option.some.inj htext
    exact parse?_ron h

/-- What was saved is loaded again. -/
theorem load_save (h : s.IsDefined) (hsave : (s.save path).run.run t = (.ok (), t')) :
    load t' path = .ok s := by
  obtain ⟨format, text, hformat, htext, hwrite⟩ := run_save_eq_ok.mp hsave
  rw [load, formatOf, hformat]
  dsimp only [bind, Except.bind]
  rw [FileTree.readText_write hwrite]
  dsimp only [Except.mapError]
  rw [parse?_of_render? h htext]
  rfl

/-- Settings without undefined numbers are kept without loss, as text and in files. -/
theorem kept_without_loss {s : Settings} (h : s.IsDefined) :
    -- RON holds all settings
    (∃ text, s.render? .ron = some text ∧ parse? .ron text = some s) ∧
    -- TOML holds all settings but counts beyond its integers
    (s.render? .toml = none ↔ ∃ n ∈ [s.budget.windowMs, s.cache.capacity, s.limits.maxHits,
      s.limits.perPart, s.limits.perGroup], TomlValue.maxInteger < n.toNat) ∧
    (∀ text, s.render? .toml = some text → parse? .toml text = some s) ∧
    -- what was saved is loaded, and saving works wherever there is a text that can be written
    (∀ t t' path, (s.save path).run.run t = (.ok (), t') → load t' path = .ok s) ∧
    (∀ t t' path format text, SettingsFormat.ofPath? path = some format →
      s.render? format = some text → t.write (.ofText path) text.toUTF8 = .ok t' →
        (s.save path).run.run t = (.ok (), t')) ∧
    -- without a text the files are left as they were
    (∀ t path, SettingsFormat.ofPath? path = none →
      (s.save path).run.run t = (.error (.unsupportedFormat path), t)) ∧
    (∀ t path format, SettingsFormat.ofPath? path = some format → s.render? format = none →
      (s.save path).run.run t = (.error .serialize, t)) := by
  refine ⟨⟨_, rfl, parse?_ron h⟩, render?_toml_eq_none, fun text => parse?_toml h,
    fun t t' path => load_save h, ?_, fun t path => run_save_of_unsupported,
    fun t path format => run_save_of_no_text⟩
  intro t t' path format text hformat htext hwrite
  exact run_save_eq_ok.mpr ⟨format, text, hformat, htext, hwrite⟩

/-! ### An instance -/

/-- Settings at the edges of what their types hold. -/
def edge : Settings where
  budget := { windowMs := 0xffffffffffffffff, minimumMs := Float32.ofBits 1 }
  tolerances := { floatTolerance := Float32.ofBits 0x80000000, dedupTolerance := Single.infinity }

lemma isDefined_edge : edge.IsDefined := by constructor <;> decide +kernel

lemma isDefined_default : ({} : Settings).IsDefined := by constructor <;> decide +kernel

lemma splitOnAux_step {i : String.Pos.Raw} (h : i.atEnd path = false)
    (hne : (i.get path == '/') = false) :
    path.splitOnAux "/" 0 i 0 [] = path.splitOnAux "/" 0 ((i.unoffsetBy 0).next path) 0 [] := by
  have hslash : String.Pos.Raw.get "/" 0 = '/' := by decide
  rw [String.splitOnAux, if_neg (by simp [h]), hslash, if_neg (by simp [hne])]

lemma splitOnAux_end {i : String.Pos.Raw} (h : i.atEnd path = true) :
    path.splitOnAux "/" 0 i 0 [] = [String.Pos.Raw.extract path 0 i] := by
  rw [String.splitOnAux, if_pos h]
  rfl

lemma ofText_ron : FilePath.ofText "a.ron" = ⟨false, [.down "a.ron"], false⟩ := by
  have hsplit : "a.ron".splitOn "/" = ["a.ron"] := by
    rw [String.splitOn, if_neg (by decide)]
    iterate 5 rw [splitOnAux_step (by decide) (by decide)]
    rw [splitOnAux_end (by decide)]
    decide
  rw [FilePath.ofText, hsplit]
  rfl

theorem kept_without_loss_edge :
    edge.IsDefined ∧ (∃ text, edge.render? .ron = some text ∧ parse? .ron text = some edge) ∧
    edge.render? .toml = none ∧
    (∃ t, (edge.save "a.ron").run.run .empty = (.ok (), t) ∧ load t "a.ron" = .ok edge) ∧
    ({} : Settings).IsDefined ∧
    (∃ text, ({} : Settings).render? .toml = some text ∧ parse? .toml text = some {}) := by
  obtain ⟨hron, htoml, -, hload, hsave, -⟩ := kept_without_loss isDefined_edge
  obtain ⟨-, htoml', hback, -⟩ := kept_without_loss isDefined_default
  refine ⟨isDefined_edge, hron, htoml.mpr ⟨_, List.mem_cons_self, by decide⟩, ?_,
    isDefined_default, ?_⟩
  · obtain ⟨text, htext, -⟩ := hron
    have hformat : SettingsFormat.ofPath? "a.ron" = some .ron := by
      rw [SettingsFormat.ofPath?, ofText_ron]
      decide
    have hwrite : FileTree.empty.write (.ofText "a.ron") text.toUTF8 =
        .ok (FileTree.empty.put ⟨.above 0, ["a.ron"]⟩ (.file text.toUTF8)) := by
      rw [ofText_ron]
      rfl
    have hsaved := hsave _ _ _ _ _ hformat htext hwrite
    exact ⟨_, hsaved, hload _ _ _ hsaved⟩
  · have hfits : ({} : Settings).render? .toml ≠ none := htoml'.not.mpr (by decide)
    obtain ⟨text, htext⟩ := Option.ne_none_iff_exists'.mp hfits
    exact ⟨text, htext, hback text htext⟩

end Settings

end Sightline
