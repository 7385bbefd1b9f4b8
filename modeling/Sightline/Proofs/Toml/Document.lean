import Mathlib.Tactic
import Sightline.Proofs.Toml.Values

/-!
# TOML documents read back

A document of two levels is read line by line. What its lines put into the draft, one after the
other, is the document.
-/

namespace Sightline

namespace Toml

open Reader

variable {rest text : List Char} {d d' d'' : Draft} {entries inner : Entries} {k key : String}
  {v : TomlValue} {node node' : Node}

/-! ### Keys of an unfinished table -/

/-- A key that stands for nothing yet. -/
def Fresh (key : String) (entries : Entries) : Prop := key ∉ entries.map Prod.fst

lemma fresh_nil : Fresh key [] := List.not_mem_nil

lemma fresh_cons {entry : String × Node} :
    Fresh key (entry :: entries) ↔ entry.1 ≠ key ∧ Fresh key entries := by
  simp [Fresh, eq_comm]

lemma Fresh.snoc (h : Fresh key entries) (hne : key ≠ k) : Fresh key (entries ++ [(k, node)]) := by
  simpa [Fresh, hne] using h

lemma Fresh.find?_eq (h : Fresh key entries) : entries.find? key = none := by
  rw [Entries.find?, List.lookup_eq_none_iff]
  intro entry hentry
  rw [bne_iff_ne]
  rintro rfl
  exact h (List.mem_map_of_mem hentry)

/-- A fresh key is put behind the others. -/
lemma Fresh.set_eq (h : Fresh key entries) : entries.set key node = entries ++ [(key, node)] := by
  induction entries with
  | nil => rfl
  | cons entry entries ih =>
    obtain ⟨hentry, hrest⟩ := fresh_cons.mp h
    rw [Entries.set, if_neg hentry, ih hrest, List.cons_append]

lemma Fresh.find?_append (h : Fresh key entries) :
    Entries.find? (entries ++ [(key, node)]) key = some node := by
  rw [Entries.find?, List.lookup_append, ← Entries.find?, h.find?_eq]
  simp

lemma Fresh.set_append (h : Fresh key entries) :
    Entries.set (entries ++ [(key, node)]) key node' = entries ++ [(key, node')] := by
  induction entries with
  | nil => simp [Entries.set]
  | cons entry entries ih =>
    obtain ⟨hentry, hrest⟩ := fresh_cons.mp h
    rw [List.cons_append, Entries.set, if_neg hentry, ih hrest, List.cons_append]

lemma putValue_of_fresh (h : Fresh key entries) :
    putValue [key] v entries = some (entries ++ [(key, .value v)]) := by
  simp [putValue, alter, h.find?_eq, h.set_eq]

lemma putUnder_document (h : Fresh key entries) :
    putUnder [] [key] v entries = some (entries ++ [(key, .value v)]) := putValue_of_fresh h

lemma putUnder_section (hk : Fresh k entries) (h : Fresh key inner) :
    putUnder [k] [key] v (entries ++ [(k, .table .header inner)]) =
      some (entries ++ [(k, .table .header (inner ++ [(key, .value v)]))]) := by
  simp [putUnder, alter, hk.find?_append, hk.set_append, putValue_of_fresh h]

lemma openTable_of_fresh (h : Fresh k entries) :
    openTable [k] entries = some (entries ++ [(k, .table .header [])]) := by
  simp [openTable, alter, h.find?_eq, h.set_eq]

/-! ### What a line does -/

/-- Lines take a draft further: a document that is read from there on is read with them in front.
Every step that is used up has taken a character. -/
def Advances (text : List Char) (d d' : Draft) : Prop :=
  ∀ rest steps, (text ++ rest).length < steps → ∃ steps', rest.length < steps' ∧
    ∀ {result rest'}, (lines steps' d').Reads rest result rest' →
      (lines steps d).Reads (text ++ rest) result rest'

lemma Advances.refl (d : Draft) : Advances [] d d := fun _ steps hsteps => ⟨steps, hsteps, id⟩

lemma Advances.trans {text' : List Char} (h : Advances text d d') (h' : Advances text' d' d'') :
    Advances (text ++ text') d d'' := by
  intro rest steps hsteps
  rw [List.append_assoc] at hsteps ⊢
  obtain ⟨steps', hsteps', hread⟩ := h (text' ++ rest) steps hsteps
  obtain ⟨steps'', hsteps'', hread'⟩ := h' rest steps' hsteps'
  exact ⟨steps'', hsteps'', hread ∘ hread'⟩

lemma reads_keyLine (rest : List Char) (hkey : IsBare key) (hv : IsWritable v) {steps : ℕ}
    (hsteps : (valueText v).toList.length < steps)
    (hput : putUnder d.header [key] v d.entries = some entries) :
    (keyLine steps d).Reads ((keyLineText key v).toList ++ rest) { d with entries := entries }
      rest := by
  have htext : (keyLineText key v).toList ++ rest =
      key.toList ++ ([' '] ++ '=' :: ([' '] ++ ((valueText v).toList ++ '\n' :: rest))) := by
    simp [keyLineText]
  have hspace : ∀ c ∈ [' '], isBlank c = true := List.all_eq_true.mp rfl
  rw [htext, keyLine]
  refine (reads_key [' '] hkey hspace (by simp [isBlank]) (by simp)
    (by simp [isBareChar])).bind ?_
  refine (reads_char _ _).bind ?_
  refine (reads_blanks hspace (stops_valueText hv (forall_mem_false rfl))).bind ?_
  refine (reads_value hv ⟨'\n', rfl, Or.inl rfl⟩ hsteps).bind ?_
  refine (reads_lineEnd rest).bind ?_
  exact (reads_lift hput _).bind (reads_pure _ _)

/-- A key and its value on a line. -/
lemma advances_keyLine (hkey : IsBare key) (hv : IsWritable v)
    (hput : putUnder d.header [key] v d.entries = some entries) :
    Advances (keyLineText key v).toList d { d with entries := entries } := by
  intro rest steps hsteps
  obtain ⟨steps, rfl⟩ := Nat.exists_eq_add_one.mpr (Nat.zero_lt_of_lt hsteps)
  have hlength : (valueText v).toList.length + rest.length < steps := by
    simp [keyLineText] at hsteps
    omega
  have henough : (valueText v).toList.length < steps := by omega
  have hread := reads_keyLine rest hkey hv henough hput
  have hstop {p : Char → Bool} (hp : ∀ c, isBareChar c = true → p c = false) :
      Stops p ((keyLineText key v).toList ++ rest) := by
    rw [keyLineText]
    simp only [String.toList_append, List.append_assoc]
    exact hkey.stops hp
  have hmarks : Stops (fun c => !isBareChar c) ((keyLineText key v).toList ++ rest) :=
    hstop fun c hc => by rw [hc, Bool.not_true]
  refine ⟨steps, by omega, fun hlines => ?_⟩
  rw [lines]
  refine (reads_blanks_nil (hstop fun _ => not_isBlank_of_isBareChar)).bind ?_
  refine (reads_peek _).bind ?_
  split
  next hnone => simp [keyLineText] at hnone
  iterate 4 exact absurd (hmarks _ ‹_›) (by decide)
  exact hread.bind hlines

/-! ### Headers -/

/-- An empty line. -/
lemma advances_newline (d : Draft) : Advances ['\n'] d d := by
  intro rest steps hsteps
  obtain ⟨steps, rfl⟩ := Nat.exists_eq_add_one.mpr (Nat.zero_lt_of_lt hsteps)
  refine ⟨steps, by simpa using hsteps, fun hlines => ?_⟩
  rw [lines]
  refine (reads_blanks_nil (by simp [isBlank])).bind ?_
  refine (reads_peek _).bind ?_
  exact (reads_lineEnd rest).bind hlines

lemma reads_headerLine (rest : List Char) (hk : IsBare k)
    (hopen : openTable [k] d.entries = some entries) :
    (headerLine d).Reads ('[' :: (k.toList ++ ']' :: '\n' :: rest)) ⟨entries, [k]⟩ rest := by
  have hone : ¬ ['[', '['] <+: '[' :: (k.toList ++ ']' :: '\n' :: rest) := by
    rintro ⟨after, hafter⟩
    have hbare : Stops (· == '[') (k.toList ++ ']' :: '\n' :: rest) :=
      hk.stops fun c hc => by
        rw [beq_eq_false_iff_ne]
        rintro rfl
        cases hc
    rw [← List.tail_eq_of_cons_eq hafter] at hbare
    simp at hbare
  rw [headerLine]
  refine (reads_optionalText_of_differs hone).bind ?_
  rw [if_neg Bool.false_ne_true]
  refine (reads_char _ _).bind ?_
  refine (reads_key [] hk (by simp) (by simp [isBlank]) (by simp)
    (by simp [isBareChar])).bind ?_
  refine (reads_char _ _).bind ?_
  refine (reads_lineEnd rest).bind ?_
  exact (reads_lift hopen _).bind (reads_pure _ _)

/-- A header on a line. -/
lemma advances_headerLine (hk : IsBare k) (hopen : openTable [k] d.entries = some entries) :
    Advances ('[' :: (k.toList ++ [']', '\n'])) d ⟨entries, [k]⟩ := by
  intro rest steps hsteps
  obtain ⟨steps, rfl⟩ := Nat.exists_eq_add_one.mpr (Nat.zero_lt_of_lt hsteps)
  have hread := reads_headerLine rest hk hopen
  simp only [List.cons_append, List.append_assoc, List.nil_append] at hsteps ⊢
  refine ⟨steps, ?_, fun hlines => ?_⟩
  · simp only [List.length_cons, List.length_append] at hsteps
    omega
  · rw [lines]
    refine (reads_blanks_nil (by simp [isBlank])).bind ?_
    refine (reads_peek _).bind ?_
    exact hread.bind hlines

/-! ### Documents -/

/-- Keys with values that can be written on lines. -/
structure IsLines (table : TomlTable) : Prop where
  bare : ∀ entry ∈ table, IsBare entry.1
  writable : ∀ entry ∈ table, IsWritable entry.2
  distinct : (table.map Prod.fst).Nodup

/-- Finished values as a part of a draft. -/
def nodes (table : TomlTable) : Entries := table.map fun (key, v) => (key, .value v)

/-- Finished tables as a part of a draft, each with a header. -/
def sectionNodes (sections : List (String × TomlTable)) : Entries :=
  sections.map fun (k, table) => (k, .table .header (nodes table))

/-- Tables as values of a document. -/
def tables (sections : List (String × TomlTable)) : TomlTable :=
  sections.map fun (k, table) => (k, .table table)

/-- A document of two levels. -/
structure IsDocument (plain : TomlTable) (sections : List (String × TomlTable)) : Prop where
  lines : IsLines plain
  bare : ∀ sec ∈ sections, IsBare sec.1
  inner : ∀ sec ∈ sections, IsLines sec.2
  distinct : (plain.map Prod.fst ++ sections.map Prod.fst).Nodup

lemma map_fst_nodes (table : TomlTable) : (nodes table).map Prod.fst = table.map Prod.fst := by
  simp [nodes]

lemma map_fst_tables (sections : List (String × TomlTable)) :
    (tables sections).map Prod.fst = sections.map Prod.fst := by
  simp [tables]

lemma IsWritable.ne_table (h : IsWritable v) (table : TomlTable) : v ≠ .table table := by
  rintro rfl
  cases h with
  | plain h => cases h

lemma linesText_cons {table : TomlTable} (h : IsWritable v) :
    linesText ((key, v) :: table) = keyLineText key v ++ linesText table := by
  rw [linesText]
  exact h.ne_table

/-- The lines of a table fill the place in the draft that they are put in. -/
lemma advances_linesText (place : Entries → Draft)
    (hplace : ∀ {inner key v}, IsBare key → IsWritable v → Fresh key inner →
      Advances (keyLineText key v).toList (place inner) (place (inner ++ [(key, .value v)])))
    {table : TomlTable} (h : IsLines table) (hfresh : ∀ entry ∈ table, Fresh entry.1 inner) :
    Advances (linesText table).toList (place inner) (place (inner ++ nodes table)) := by
  induction table generalizing inner with
  | nil =>
    rw [nodes, List.map_nil, List.append_nil]
    exact .refl _
  | cons entry table ih =>
    obtain ⟨key, v⟩ := entry
    obtain ⟨hkey, hdistinct⟩ := List.nodup_cons.mp h.distinct
    have hv : IsWritable v := h.writable _ List.mem_cons_self
    have hline := hplace (h.bare _ List.mem_cons_self) hv (hfresh _ List.mem_cons_self)
    have hrest : IsLines table :=
      ⟨fun e he => h.bare e (List.mem_cons_of_mem _ he),
        fun e he => h.writable e (List.mem_cons_of_mem _ he), hdistinct⟩
    have hothers : ∀ e ∈ table, Fresh e.1 (inner ++ [(key, .value v)]) := fun e he =>
      (hfresh e (List.mem_cons_of_mem _ he)).snoc
        (ne_of_mem_of_not_mem (List.mem_map_of_mem he) hkey)
    have hlines := ih hrest hothers
    rw [List.append_assoc] at hlines
    rw [linesText_cons hv, String.toList_append]
    exact hline.trans hlines

lemma advances_document {plain : TomlTable} (h : IsLines plain) :
    Advances (linesText plain).toList ⟨[], []⟩ ⟨nodes plain, []⟩ :=
  advances_linesText (fun inner => ⟨inner, []⟩)
    (fun hkey hv hfresh => advances_keyLine hkey hv (putUnder_document hfresh)) h
    (fun _ _ => fresh_nil)

lemma advances_section {table : TomlTable} (header : List String) (hk : IsBare k)
    (h : IsLines table) (hfresh : Fresh k entries) :
    Advances ("\n[" ++ k ++ "]\n" ++ linesText table).toList ⟨entries, header⟩
      ⟨entries ++ [(k, .table .header (nodes table))], [k]⟩ := by
  have hlines := advances_linesText
    (fun inner => ⟨entries ++ [(k, .table .header inner)], [k]⟩)
    (fun hkey hv hinner => advances_keyLine hkey hv (putUnder_section hfresh hinner)) h
    (fun _ _ => fresh_nil)
  have hheader := advances_headerLine (d := ⟨entries, header⟩) hk (openTable_of_fresh hfresh)
  have htext : ("\n[" ++ k ++ "]\n" ++ linesText table).toList =
      ['\n'] ++ ('[' :: (k.toList ++ [']', '\n']) ++ (linesText table).toList) := by
    simp
  rw [htext]
  exact (advances_newline _).trans (hheader.trans hlines)

lemma advances_sectionsText {sections : List (String × TomlTable)} (header : List String)
    (hbare : ∀ sec ∈ sections, IsBare sec.1) (hlines : ∀ sec ∈ sections, IsLines sec.2)
    (hdistinct : (sections.map Prod.fst).Nodup) (hfresh : ∀ sec ∈ sections, Fresh sec.1 entries) :
    ∃ header', Advances (sectionsText (tables sections)).toList ⟨entries, header⟩
      ⟨entries ++ sectionNodes sections, header'⟩ := by
  induction sections generalizing entries header with
  | nil =>
    refine ⟨header, ?_⟩
    rw [sectionNodes, List.map_nil, List.append_nil]
    exact .refl _
  | cons sec sections ih =>
    obtain ⟨k, table⟩ := sec
    obtain ⟨hk, hdistinct⟩ := List.nodup_cons.mp hdistinct
    have hsection := advances_section header (hbare _ List.mem_cons_self)
      (hlines _ List.mem_cons_self) (hfresh _ List.mem_cons_self)
    have hothers : ∀ s ∈ sections,
        Fresh s.1 (entries ++ [(k, .table .header (nodes table))]) := fun s hs =>
      (hfresh s (List.mem_cons_of_mem _ hs)).snoc
        (ne_of_mem_of_not_mem (List.mem_map_of_mem hs) hk)
    obtain ⟨header', hrest⟩ := ih [k] (fun s hs => hbare s (List.mem_cons_of_mem _ hs))
      (fun s hs => hlines s (List.mem_cons_of_mem _ hs)) hdistinct hothers
    refine ⟨header', ?_⟩
    have htext : (sectionsText (tables ((k, table) :: sections))).toList =
        ("\n[" ++ k ++ "]\n" ++ linesText table).toList ++
          (sectionsText (tables sections)).toList := by
      rw [← String.toList_append]
      rfl
    rw [List.append_assoc] at hrest
    rw [htext]
    exact hsection.trans hrest

/-- Plain values are written in front of all tables. -/
lemma linesText_append {plain : TomlTable} (h : ∀ entry ∈ plain, IsWritable entry.2)
    (sections : List (String × TomlTable)) :
    linesText (plain ++ tables sections) = linesText plain := by
  induction plain with
  | nil =>
    induction sections with
    | nil => rfl
    | cons sec sections ih => exact ih
  | cons entry plain ih =>
    have hv := h entry List.mem_cons_self
    rw [List.cons_append, linesText_cons hv, linesText_cons hv,
      ih fun e he => h e (List.mem_cons_of_mem _ he)]

lemma sectionsText_append {plain : TomlTable} (h : ∀ entry ∈ plain, IsWritable entry.2)
    (sections : List (String × TomlTable)) :
    sectionsText (plain ++ tables sections) = sectionsText (tables sections) := by
  induction plain with
  | nil => rfl
  | cons entry plain ih =>
    rw [List.cons_append, sectionsText, ih fun e he => h e (List.mem_cons_of_mem _ he)]
    exact fun _ table heq => (h entry List.mem_cons_self).ne_table table (congrArg Prod.snd heq)

/-- A finished draft is the document that its lines were written from. -/
lemma toTable_append (entries entries' : Entries) :
    toTable (entries ++ entries') = toTable entries ++ toTable entries' := by
  induction entries with
  | nil => rfl
  | cons entry entries ih => rw [List.cons_append, toTable, toTable, ih, List.cons_append]

lemma toTable_nodes (table : TomlTable) : toTable (nodes table) = table := by
  induction table with
  | nil => rfl
  | cons entry table ih => exact congrArg (entry :: ·) ih

lemma toTable_sectionNodes (sections : List (String × TomlTable)) :
    toTable (sectionNodes sections) = tables sections := by
  induction sections with
  | nil => rfl
  | cons sec sections ih =>
    obtain ⟨k, table⟩ := sec
    have hcons : toTable (sectionNodes ((k, table) :: sections)) =
        (k, .table (toTable (nodes table))) :: toTable (sectionNodes sections) := rfl
    rw [hcons, toTable_nodes, ih]
    rfl

/-- A document is read back from its text. -/
theorem parse?_documentText {plain : TomlTable} {sections : List (String × TomlTable)}
    (h : IsDocument plain sections) :
    parse? (documentText (plain ++ tables sections)) = some (plain ++ tables sections) := by
  have hfresh : ∀ sec ∈ sections, Fresh sec.1 (nodes plain) := by
    intro sec hsec
    rw [Fresh, map_fst_nodes]
    exact fun hplain => (List.disjoint_of_nodup_append h.distinct) hplain (List.mem_map_of_mem hsec)
  obtain ⟨header, hsections⟩ := advances_sectionsText [] h.bare h.inner
    h.distinct.of_append_right hfresh
  have hdocument := (advances_document h.lines).trans hsections
  rw [documentText, linesText_append h.lines.writable, sectionsText_append h.lines.writable]
  rw [← String.toList_append] at hdocument
  generalize linesText plain ++ sectionsText (tables sections) = text at hdocument ⊢
  have henough : (text.toList ++ []).length < 4 * (text.toList.length + 1) := by
    rw [List.append_nil]
    omega
  obtain ⟨steps, hsteps, hread⟩ := hdocument [] _ henough
  obtain ⟨steps, rfl⟩ := Nat.exists_eq_add_one.mpr (Nat.zero_lt_of_lt hsteps)
  have hend : (lines (steps + 1) ⟨nodes plain ++ sectionNodes sections, header⟩).Reads []
      ⟨nodes plain ++ sectionNodes sections, header⟩ [] := by
    rw [lines]
    exact (reads_blanks_nil stops_nil).bind ((reads_peek _).bind (reads_pure _ _))
  have hlines := hread hend
  rw [List.append_nil] at hlines
  rw [parse?, hlines.run?_eq, Option.map_some, toTable_append, toTable_nodes,
    toTable_sectionNodes]

end Toml

end Sightline
