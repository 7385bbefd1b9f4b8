import Mathlib.Tactic
import Sightline.Proofs.Settings.Spelling
import Sightline.Proofs.Toml.Document
import Sightline.Settings.Format

/-!
# Settings read back from text

Every setting is a part of the settings that is copied when it is written and read. The parts are
all there is, so the text of settings is read as the settings themselves.
-/

namespace Sightline

open Reader

/-- Reading what was written for a setting copies it from the saved settings. -/
structure Setting.Copies (setting : Setting) (saved : Settings) (fill : Settings → Settings) :
    Prop where
  toml : ∀ v, setting.toToml? saved = some v →
    Toml.IsWritable v ∧ ∀ s, setting.ofToml? v s = some (fill s)
  ron : ∀ level, Ron.TakesBack setting.ofRon level (setting.toRon saved) fill

lemma Setting.copies_make {β : Type} {key : String} {spelling : Spelling β} {saved : Settings}
    {get : Settings → β} {set : Settings → β → Settings} (h : spelling.Keeps (get saved)) :
    (Setting.make key spelling get set).Copies saved fun s => set s (get saved) where
  toml v hv := by
    obtain ⟨hwritable, hback⟩ := h.toml v hv
    exact ⟨hwritable, fun s => congrArg (Option.map (set s)) hback⟩
  ron level := ⟨h.starts level, fun s rest => (h.ron level rest).bind (reads_pure _ _)⟩

namespace Settings

variable {saved s : Settings} {settings : List Setting} {secs : List SettingsSection}
  {fill : Settings → Settings}

/-- Reading what was written for settings copies them one after the other. -/
inductive CopiesAll (saved : Settings) : List Setting → (Settings → Settings) → Prop
  | nil : CopiesAll saved [] id
  | cons {setting : Setting} {settings : List Setting} {fill fills : Settings → Settings}
    (first : setting.Copies saved fill) (others : CopiesAll saved settings fills) :
    CopiesAll saved (setting :: settings) (fills ∘ fill)

/-- Reading what was written for sections copies them one after the other. -/
inductive CopiesSections (saved : Settings) :
    List SettingsSection → (Settings → Settings) → Prop
  | nil : CopiesSections saved [] id
  | cons {sec : SettingsSection} {secs : List SettingsSection} {fill fills : Settings → Settings}
    (first : CopiesAll saved sec.settings fill) (others : CopiesSections saved secs fills) :
    CopiesSections saved (sec :: secs) (fills ∘ fill)

/-! ### Keys -/

/-- The keys of settings are names, and no two of them are the same. -/
structure HasKeys (settings : List Setting) : Prop where
  names : ∀ setting ∈ settings, Ron.IsName setting.key
  distinct : (settings.map Setting.key).Nodup

lemma hasKeys_sections : ∀ sec ∈ sections, HasKeys sec.settings := by
  have hnames : ∀ sec ∈ sections, ∀ setting ∈ sec.settings, Ron.IsName setting.key := by decide
  have hdistinct : ∀ sec ∈ sections, (sec.settings.map Setting.key).Nodup := by decide
  exact fun sec hsec => ⟨hnames sec hsec, hdistinct sec hsec⟩

lemma isName_sections : ∀ sec ∈ sections, Ron.IsName sec.key := by decide

lemma isName_plainSettings : ∀ setting ∈ plainSettings, Ron.IsName setting.key := by decide

lemma keys_distinct :
    (plainSettings.map Setting.key ++ sections.map SettingsSection.key).Nodup := by decide

/-! ### RON -/

lemma CopiesAll.ronFills (h : CopiesAll saved settings fill)
    (hnames : ∀ setting ∈ settings, Ron.IsName setting.key) (e : Ron.Extensions)
    (depth level : ℕ) :
    Ron.Fills e depth level (settings.map ronField) (ronFields settings saved) fill := by
  induction h with
  | nil => exact .nil
  | @cons setting settings fill fills first others ih =>
    have hothers := ih fun x hx => hnames x (List.mem_cons_of_mem _ hx)
    exact .cons (ronField setting) (hnames setting List.mem_cons_self) (first.ron level)
      hothers

lemma CopiesSections.ronFills (h : CopiesSections saved secs fill)
    (hnames : ∀ sec ∈ secs, Ron.IsName sec.key) (hkeys : ∀ sec ∈ secs, HasKeys sec.settings)
    (e : Ron.Extensions) (depth level : ℕ) :
    Ron.Fills e depth level (secs.map ronSection)
      (secs.map fun sec => (sec.key, .record (ronFields sec.settings saved))) fill := by
  induction h with
  | nil => exact .nil
  | @cons sec secs fill fills first others ih =>
    have hothers := ih (fun x hx => hnames x (List.mem_cons_of_mem _ hx))
      (fun x hx => hkeys x (List.mem_cons_of_mem _ hx))
    have hsec := hkeys sec List.mem_cons_self
    have hdistinct : ((sec.settings.map ronField).map Ron.Field.name).Nodup := by
      rw [List.map_map]
      exact hsec.distinct
    exact .cons (ronSection sec) (hnames sec List.mem_cons_self)
      (Ron.takesBack_record (first.ronFills hsec.names e _ _) hdistinct) hothers

/-! ### TOML -/

lemma lookup_eq_of_mem {table : TomlTable} (hdistinct : (table.map Prod.fst).Nodup) {k : String}
    {v : TomlValue} (hmem : (k, v) ∈ table) : table.lookup k = some v := by
  induction table with
  | nil => cases hmem
  | cons entry table ih =>
    obtain ⟨hother, hdistinct⟩ := List.nodup_cons.mp hdistinct
    rcases List.mem_cons.mp hmem with rfl | hmem
    · simp
    · have hne : k ≠ entry.1 := ne_of_mem_of_not_mem (List.mem_map_of_mem hmem) hother
      rw [List.lookup_cons, beq_eq_false_iff_ne.mpr hne]
      exact ih hdistinct hmem

/-- What is written for settings, and read from any table that it stands in. -/
structure IsWritten (settings : List Setting) (fill : Settings → Settings) (entries : TomlTable) :
    Prop where
  keys : entries.map Prod.fst = settings.map Setting.key
  writable : ∀ entry ∈ entries, Toml.IsWritable entry.2
  back : ∀ table : TomlTable, (∀ entry ∈ entries, table.lookup entry.1 = some entry.2) →
    ∀ s, ofEntries? settings table s = some (fill s)

lemma CopiesAll.isWritten (h : CopiesAll saved settings fill) {entries : TomlTable}
    (hentries : toEntries? settings saved = some entries) : IsWritten settings fill entries := by
  induction h generalizing entries with
  | nil =>
    obtain rfl : [] = entries := by simpa [toEntries?] using hentries
    exact ⟨rfl, by simp, fun _ _ s => rfl⟩
  | @cons setting settings fill fills first others ih =>
    obtain ⟨v, hv, entries, hothers, rfl⟩ : ∃ v, setting.toToml? saved = some v ∧
        ∃ others, toEntries? settings saved = some others ∧
          (setting.key, v) :: others = entries := by
      simpa [toEntries?, Option.bind_eq_some_iff, Option.map_eq_some_iff] using hentries
    obtain ⟨hwritable, hback⟩ := first.toml v hv
    have hrest := ih hothers
    refine ⟨by simp [hrest.keys], ?_, fun table htable s => ?_⟩
    · exact List.forall_mem_cons.mpr ⟨hwritable, hrest.writable⟩
    · have hlookup := htable _ List.mem_cons_self
      have hrest := hrest.back table (fun e he => htable e (List.mem_cons_of_mem _ he)) (fill s)
      rw [ofEntries?, List.foldlM_cons, hlookup]
      dsimp only
      rw [hback]
      exact hrest

lemma isBareChar_of_isNameChar {c : Char} (hc : Ron.isNameChar c = true) :
    Toml.isBareChar c = true := by
  rw [Toml.isBareChar, ← Ron.isNameChar, hc, Bool.true_or]

lemma isBare_of_isName {key : String} (h : Ron.IsName key) : Toml.IsBare key where
  ne := by
    obtain ⟨c, cs, heq, -⟩ := h.exists_cons
    exact heq ▸ List.cons_ne_nil c cs
  all c hc := isBareChar_of_isNameChar (List.all_eq_true.mp h.all c hc)

lemma IsWritten.isLines {entries : TomlTable} (h : IsWritten settings fill entries)
    (hkeys : HasKeys settings) : Toml.IsLines entries where
  bare entry hentry := by
    have hkey := List.mem_map_of_mem (f := Prod.fst) hentry
    rw [h.keys] at hkey
    obtain ⟨setting, hsetting, heq⟩ := List.mem_map.mp hkey
    exact heq ▸ isBare_of_isName (hkeys.names setting hsetting)
  writable := h.writable
  distinct := h.keys ▸ hkeys.distinct

/-- What is written for sections, and read from any document that it stands in. -/
structure AreWritten (secs : List SettingsSection) (fill : Settings → Settings)
    (written : List (String × TomlTable)) : Prop where
  keys : written.map Prod.fst = secs.map SettingsSection.key
  lines : ∀ sec ∈ written, Toml.IsLines sec.2
  back : ∀ document : TomlTable,
    (∀ sec ∈ written, document.lookup sec.1 = some (.table sec.2)) →
      ∀ s, secs.foldlM (fun s sec =>
        match document.lookup sec.key with
        | some v => ofSection? sec v s
        | none => some s) s = some (fill s)

lemma CopiesSections.areWritten (h : CopiesSections saved secs fill)
    (hkeys : ∀ sec ∈ secs, HasKeys sec.settings) {document : TomlTable}
    (hdocument : secs.mapM (fun sec =>
      (toEntries? sec.settings saved).map fun entries => (sec.key, TomlValue.table entries)) =
        some document) :
    ∃ written, Toml.tables written = document ∧ AreWritten secs fill written := by
  induction h generalizing document with
  | nil =>
    obtain rfl : [] = document := by simpa using hdocument
    exact ⟨[], rfl, rfl, by simp, fun _ _ s => rfl⟩
  | @cons sec secs fill fills first others ih =>
    obtain ⟨entries, hentries, tables, hothers, rfl⟩ : ∃ entries,
        toEntries? sec.settings saved = some entries ∧ ∃ tables,
          secs.mapM (fun sec => (toEntries? sec.settings saved).map fun entries =>
            (sec.key, TomlValue.table entries)) = some tables ∧
          (sec.key, .table entries) :: tables = document := by
      simpa [Option.bind_eq_some_iff, Option.map_eq_some_iff] using hdocument
    obtain ⟨written, rfl, hrest⟩ := ih (fun x hx => hkeys x (List.mem_cons_of_mem _ hx)) hothers
    have hfirst := first.isWritten hentries
    have hsec := hkeys sec List.mem_cons_self
    have hlines := hfirst.isLines hsec
    refine ⟨(sec.key, entries) :: written, rfl, ?_, ?_, fun document htables s => ?_⟩
    · simp [hrest.keys]
    · exact List.forall_mem_cons.mpr ⟨hlines, hrest.lines⟩
    · have hlookup := htables _ List.mem_cons_self
      have hrest := hrest.back document (fun x hx => htables x (List.mem_cons_of_mem _ hx)) (fill s)
      have hentries := hfirst.back entries
        (fun entry hentry => lookup_eq_of_mem hlines.distinct hentry) s
      rw [List.foldlM_cons, hlookup]
      dsimp only
      rw [ofSection?, hentries]
      exact hrest

/-! ### All settings -/

/-- None of the numbers is undefined. -/
structure IsDefined (s : Settings) : Prop where
  regionMs : Scalar.isDefined s.budget.regionMs = true
  userMs : Scalar.isDefined s.budget.userMs = true
  minimumMs : Scalar.isDefined s.budget.minimumMs = true
  floatTolerance : Scalar.isDefined s.tolerances.floatTolerance = true
  dedupTolerance : Scalar.isDefined s.tolerances.dedupTolerance = true
  safetyX : Scalar.isDefined s.culling.safety.x = true
  safetyY : Scalar.isDefined s.culling.safety.y = true
  safetyZ : Scalar.isDefined s.culling.safety.z = true

open Setting Spelling

lemma level_keeps (level : DetailLevel) : levelSpelling.Keeps level := by
  refine choice_keeps ?_ ?_
  · cases level <;> decide
  · cases level <;> rfl

lemma scope_keeps (scope : DedupScope) :
    (choice DedupScope.all DedupScope.word).Keeps scope := by
  refine choice_keeps ?_ ?_
  · cases scope <;> decide
  · cases scope <;> rfl

lemma avatarShape_keeps (shape : AvatarShape) :
    (choice AvatarShape.all AvatarShape.word).Keeps shape := by
  refine choice_keeps ?_ ?_
  · cases shape <;> decide
  · cases shape <;> rfl

-- In each of these lemmas the copy is put together from its parts first, and compared with the
-- one that is claimed after that.

lemma copies_budget (h : saved.IsDefined) :
    CopiesAll saved budgetSection.settings fun s => { s with budget := saved.budget } := by
  have hcopies : CopiesAll saved budgetSection.settings _ :=
    .cons (copies_make (count_keeps _)) <| .cons (copies_make (number_keeps h.regionMs)) <|
      .cons (copies_make (number_keeps h.userMs)) <|
        .cons (copies_make (number_keeps h.minimumMs)) .nil
  exact hcopies

lemma copies_limits (saved : Settings) :
    CopiesAll saved limitsSection.settings fun s => { s with limits := saved.limits } := by
  have hcopies : CopiesAll saved limitsSection.settings _ :=
    .cons (copies_make (count_keeps _)) <| .cons (copies_make (count_keeps _)) <|
      .cons (copies_make (count_keeps _)) .nil
  exact hcopies

lemma copies_tolerances (h : saved.IsDefined) :
    CopiesAll saved tolerancesSection.settings
      fun s => { s with tolerances := saved.tolerances } := by
  have hcopies : CopiesAll saved tolerancesSection.settings _ :=
    .cons (copies_make (number_keeps h.floatTolerance)) <|
      .cons (copies_make (number_keeps h.dedupTolerance)) .nil
  exact hcopies

lemma copies_detail (saved : Settings) :
    CopiesAll saved detailSection.settings fun s => { s with detail := saved.detail } := by
  have hcopies : CopiesAll saved detailSection.settings _ :=
    .cons (copies_make (level_keeps _)) <| .cons (copies_make (level_keeps _)) <|
      .cons (copies_make (level_keeps _)) <| .cons (copies_make (level_keeps _)) .nil
  exact hcopies

lemma copies_cache (saved : Settings) :
    CopiesAll saved cacheSection.settings fun s => { s with cache := saved.cache } := by
  have hcopies : CopiesAll saved cacheSection.settings _ := .cons (copies_make (count_keeps _)) .nil
  exact hcopies

lemma copies_culling (h : saved.IsDefined) :
    CopiesAll saved cullingSection.settings fun s => { s with culling := saved.culling } := by
  have hcopies : CopiesAll saved cullingSection.settings _ :=
    .cons (copies_make (triple_keeps h.safetyX h.safetyY h.safetyZ)) .nil
  exact hcopies

/-- Sections hold all settings but the plain ones. -/
lemma copies_sections (h : saved.IsDefined) :
    CopiesSections saved sections fun s => { s with
      budget := saved.budget, limits := saved.limits, tolerances := saved.tolerances
      detail := saved.detail, cache := saved.cache, culling := saved.culling } := by
  have hcopies : CopiesSections saved sections _ :=
    .cons (copies_budget h) <| .cons (copies_limits saved) <| .cons (copies_tolerances h) <|
      .cons (copies_detail saved) <| .cons (copies_cache saved) <| .cons (copies_culling h) .nil
  exact hcopies

lemma copies_plainSettings (saved : Settings) :
    CopiesAll saved plainSettings fun s => { s with
      detectExits := saved.detectExits, dedupScope := saved.dedupScope
      avatarShape := saved.avatarShape } := by
  have hcopies : CopiesAll saved plainSettings _ :=
    .cons (copies_make (flag_keeps _)) <| .cons (copies_make (scope_keeps _)) <|
      .cons (copies_make (avatarShape_keeps _)) .nil
  exact hcopies

/-- Settings are read back from their text in RON. -/
theorem parse?_ron (h : saved.IsDefined) :
    parse? .ron (Ron.valueText 0 saved.toRon) = some saved := by
  have hsections := (copies_sections h).ronFills isName_sections hasKeys_sections {}
    (Ron.maxDepth - 2) 1
  have hplain := (copies_plainSettings saved).ronFills isName_plainSettings {}
    (Ron.maxDepth - 2) 1
  have hdistinct : ((sections.map ronSection ++ plainSettings.map ronField).map
      Ron.Field.name).Nodup := by decide
  have hread := Ron.read?_record typeName (hsections.append hplain) hdistinct {}
  exact hread

/-- Settings that TOML can hold are a document of two levels. -/
lemma toToml?_eq_some {document : TomlTable} (h : saved.toToml? = some document) :
    ∃ plain tables, toEntries? plainSettings saved = some plain ∧
      sections.mapM (fun sec => (toEntries? sec.settings saved).map fun entries =>
        (sec.key, TomlValue.table entries)) = some tables ∧
      plain ++ tables = document := by
  simpa [toToml?, Option.bind_eq_some_iff] using h

/-- Settings are read back from their text in TOML, if there is one. -/
theorem parse?_toml (h : saved.IsDefined) {text : String}
    (htext : saved.render? .toml = some text) : parse? .toml text = some saved := by
  obtain ⟨document, hdocument, rfl⟩ := Option.map_eq_some_iff.mp htext
  obtain ⟨plain, tables, hentries, htables, rfl⟩ := toToml?_eq_some hdocument
  have hplain := (copies_plainSettings saved).isWritten hentries
  obtain ⟨written, rfl, hwritten⟩ := (copies_sections h).areWritten hasKeys_sections htables
  have hdistinct : (plain.map Prod.fst ++ written.map Prod.fst).Nodup := by
    rw [hplain.keys, hwritten.keys]
    exact keys_distinct
  have hkeys : HasKeys plainSettings := ⟨isName_plainSettings, by decide⟩
  have hbare : ∀ sec ∈ written, Toml.IsBare sec.1 := by
    intro sec hsec
    have hkey := List.mem_map_of_mem (f := Prod.fst) hsec
    rw [hwritten.keys] at hkey
    obtain ⟨x, hx, heq⟩ := List.mem_map.mp hkey
    exact heq ▸ isBare_of_isName (isName_sections x hx)
  have hwhole : Toml.IsDocument plain written :=
    ⟨hplain.isLines hkeys, hbare, hwritten.lines, hdistinct⟩
  have hlookup {k : String} {v : TomlValue} (hmem : (k, v) ∈ plain ++ Toml.tables written) :
      (plain ++ Toml.tables written).lookup k = some v := by
    refine lookup_eq_of_mem ?_ hmem
    rw [List.map_append, Toml.map_fst_tables]
    exact hdistinct
  have hsections := hwritten.back (plain ++ Toml.tables written)
    (fun sec hsec => hlookup (List.mem_append_right plain (List.mem_map_of_mem hsec))) {}
  have hsettings := hplain.back (plain ++ Toml.tables written)
    (fun entry hentry => hlookup (List.mem_append_left _ hentry))
  rw [parse?, Toml.parse?_documentText hwhole, Option.bind_some, ofToml?]
  exact Option.bind_eq_some_iff.mpr ⟨_, hsections, hsettings _⟩

end Settings

end Sightline
