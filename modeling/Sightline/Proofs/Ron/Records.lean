import Mathlib.Tactic
import Sightline.Proofs.Ron.Words
import Sightline.Ron.Printer

/-!
# RON records read back

A record is written with a line for each of its fields. If every field takes back what was written
for it, the record takes back all of them, one after the other.
-/

namespace Sightline

namespace Ron

open Reader

variable {σ : Type} {e : Extensions} {depth level : ℕ} {rest : List Char}

/-- What was written for a value is read back, and fills it in. -/
structure TakesBack (read : σ → Reader σ) (level : ℕ) (v : RonValue) (fill : σ → σ) : Prop where
  starts : ∀ rest, Stops isGap ((valueText level v).toList ++ rest)
  reads : ∀ s rest, (read s).Reads ((valueText level v).toList ++ ',' :: rest) (fill s)
    (',' :: rest)

/-- Fields that were written in their order fill in a record one after the other. -/
inductive Fills (e : Extensions) (depth level : ℕ) :
    List (Field σ) → List (String × RonValue) → (σ → σ) → Prop
  | nil : Fills e depth level [] [] id
  | cons (field : Field σ) {fields : List (Field σ)} {v : RonValue}
    {values : List (String × RonValue)} {fill fills : σ → σ} (name : IsName field.name)
    (value : TakesBack (field.read e depth) level v fill)
    (others : Fills e depth level fields values fills) :
    Fills e depth level (field :: fields) ((field.name, v) :: values) (fills ∘ fill)

lemma Fills.append {fields fields' : List (Field σ)} {values values' : List (String × RonValue)}
    {fill fill' : σ → σ} (h : Fills e depth level fields values fill)
    (h' : Fills e depth level fields' values' fill') :
    Fills e depth level (fields ++ fields') (values ++ values') (fill' ∘ fill) := by
  induction h with
  | nil => exact h'
  | cons field name value others ih =>
    rw [← Function.comp_assoc]
    exact .cons field name value ih

/-! ### The lines of a record -/

/-- The blanks in front of what is left of a record. -/
def margin (level : ℕ) : List (String × RonValue) → List Char
  | [] => (indent level).toList
  | _ :: _ => (indent (level + 1)).toList

/-- What is left of a record, without the blanks in front of it. -/
def remainder (level : ℕ) (rest : List Char) : List (String × RonValue) → List Char
  | [] => ')' :: rest
  | (key, v) :: values =>
    key.toList ++ ':' :: ' ' :: ((valueText (level + 1) v).toList ++
      ',' :: '\n' :: (margin level values ++ remainder level rest values))

lemma isBlank_of_mem_indent {c : Char} {level : ℕ} (hc : c ∈ (indent level).toList) :
    isBlank c = true := by
  rw [indent, String.toList_ofList] at hc
  rw [(List.mem_replicate.mp hc).2]
  rfl

lemma isBlank_of_mem_margin {c : Char} {values : List (String × RonValue)}
    (hc : c ∈ '\n' :: margin level values) : isBlank c = true := by
  rcases List.mem_cons.mp hc with rfl | hc
  · rfl
  · cases values <;> exact isBlank_of_mem_indent hc

lemma fieldsText_eq (level : ℕ) (rest : List Char) (values : List (String × RonValue)) :
    (fieldsText (level + 1) values).toList ++ ((indent level).toList ++ ')' :: rest) =
      margin level values ++ remainder level rest values := by
  induction values with
  | nil => rfl
  | cons value values ih =>
    obtain ⟨key, v⟩ := value
    rw [remainder, ← ih]
    simp [fieldsText, margin]

lemma IsName.stops {s : String} {p : Char → Bool} (h : IsName s)
    (hp : ∀ c, isNameStart c = true → p c = false) : Stops p (s.toList ++ rest) := by
  obtain ⟨c, cs, heq, hstart⟩ := h.exists_cons
  rw [heq]
  exact stops_cons.mpr (hp c hstart)

lemma ne_of_isNameStart {c d : Char} (hc : isNameStart c = true) (hd : isNameStart d = false) :
    (c == d) = false := by
  rw [beq_eq_false_iff_ne]
  rintro rfl
  rw [hc] at hd
  cases hd

lemma not_isGap_of_isNameStart {c : Char} (hc : isNameStart c = true) : isGap c = false := by
  have hne {d : Char} (hd : isNameStart d = false) : (c == d) = false := ne_of_isNameStart hc hd
  rw [isGap, isBlank, hne rfl, hne rfl, hne rfl, hne rfl, hne rfl]
  rfl

lemma Fills.stops_remainder {fields : List (Field σ)} {values : List (String × RonValue)}
    {fill : σ → σ} (h : Fills e depth level fields values fill) (level' : ℕ) (rest : List Char) :
    Stops isGap (remainder level' rest values) := by
  cases h with
  | nil => exact stops_cons.mpr rfl
  | cons field name value others => exact name.stops fun _ => not_isGap_of_isNameStart

/-! ### Reading -/

theorem reads_fieldsOf {all fields : List (Field σ)} {values : List (String × RonValue)}
    {fill : σ → σ} (h : Fills e depth (level + 1) fields values fill)
    (hfind : ∀ field ∈ fields, all.find? (·.name == field.name) = some field)
    (hdistinct : (fields.map Field.name).Nodup) {seen : List String}
    (hseen : ∀ field ∈ fields, field.name ∉ seen) {steps : ℕ} (hsteps : fields.length < steps)
    {word : List Char} (hword : ∀ c ∈ word, isBlank c = true) (s : σ) (rest : List Char) :
    (fieldsOf all e depth steps seen s).Reads (word ++ remainder level rest values) (fill s)
      rest := by
  induction h generalizing seen steps word s with
  | nil =>
    obtain ⟨steps, rfl⟩ := Nat.exists_eq_add_one.mpr hsteps
    rw [fieldsOf]
    refine (reads_blanks hword (stops_cons.mpr rfl)).bind ?_
    exact (reads_optionalChar _ _).bind (reads_pure _ _)
  | @cons field fields v values fill fills name value others ih =>
    obtain ⟨steps, rfl⟩ := Nat.exists_eq_add_one.mpr (Nat.zero_lt_of_lt hsteps)
    obtain ⟨hother, hdistinct⟩ := List.nodup_cons.mp hdistinct
    have hnew : seen.contains field.name = false := by
      simpa using hseen field List.mem_cons_self
    have hstart {p : Char → Bool} (hp : ∀ c, isNameStart c = true → p c = false) :
        Stops p (remainder level rest ((field.name, v) :: values)) := name.stops hp
    have hunseen : ∀ f ∈ fields, f.name ∉ field.name :: seen := by
      intro f hf
      have hne : f.name ≠ field.name := ne_of_mem_of_not_mem (List.mem_map_of_mem hf) hother
      simpa [hne] using hseen f (List.mem_cons_of_mem _ hf)
    have hnone : ∀ c ∈ ([] : List Char), isBlank c = true := by simp
    have hothers := ih (fun f hf => hfind f (List.mem_cons_of_mem _ hf)) hdistinct hunseen
      (Nat.lt_of_succ_lt_succ hsteps) hnone (fill s)
    have hspace : ∀ c ∈ [' '], isBlank c = true := List.all_eq_true.mp rfl
    rw [fieldsOf]
    refine (reads_blanks hword (hstart fun _ => not_isGap_of_isNameStart)).bind ?_
    refine (reads_optionalChar_of_stops (hstart fun _ hc => ne_of_isNameStart hc rfl)).bind ?_
    refine (reads_name name (Or.inl rfl) _).bind ?_
    refine (reads_blanks_nil (stops_cons.mpr rfl)).bind ?_
    refine (reads_char _ _).bind ?_
    refine (reads_blanks hspace (value.starts _)).bind ?_
    rw [hfind field List.mem_cons_self]
    simp only [hnew, Bool.false_eq_true, if_false]
    refine (value.reads s _).bind ?_
    refine (reads_comma (fun _ => isBlank_of_mem_margin) (others.stops_remainder _ _)).bind ?_
    exact hothers

lemma find?_of_nodup {fields : List (Field σ)} (hdistinct : (fields.map Field.name).Nodup)
    {field : Field σ} (hmem : field ∈ fields) :
    fields.find? (·.name == field.name) = some field := by
  induction fields with
  | nil => cases hmem
  | cons first fields ih =>
    obtain ⟨hother, hdistinct⟩ := List.nodup_cons.mp hdistinct
    rcases List.mem_cons.mp hmem with rfl | hmem
    · simp
    · have hne : field.name ≠ first.name := ne_of_mem_of_not_mem (List.mem_map_of_mem hmem) hother
      rw [List.find?_cons_of_neg (by simpa using hne.symm)]
      exact ih hdistinct hmem

/-- A record takes fewer steps than its text has characters. -/
lemma Fills.length_le {fields : List (Field σ)} {values : List (String × RonValue)} {fill : σ → σ}
    (h : Fills e depth level fields values fill) (level' : ℕ) (rest : List Char) :
    fields.length ≤ (remainder level' rest values).length := by
  induction h with
  | nil => exact Nat.zero_le _
  | cons field name value others ih =>
    simp only [remainder, List.length_append, List.length_cons]
    omega

/-- A record is read back from its text. -/
theorem reads_record (typeName : String) {fields : List (Field σ)}
    {values : List (String × RonValue)} {fill : σ → σ}
    (h : Fills e (depth - 2) (level + 1) fields values fill)
    (hdistinct : (fields.map Field.name).Nodup) (s : σ) (rest : List Char) :
    (record typeName fields e depth s).Reads ((valueText level (.record values)).toList ++ rest)
      (fill s) rest := by
  have htext : (valueText level (.record values)).toList ++ rest =
      '(' :: '\n' :: (margin level values ++ remainder level rest values) := by
    rw [← fieldsText_eq]
    simp [valueText]
  have hblank : ∀ c ∈ '\n' :: margin level values, isBlank c = true :=
    fun _ => isBlank_of_mem_margin
  have hsteps : fields.length <
      ('\n' :: (margin level values ++ remainder level rest values)).length + 1 := by
    have hlength := h.length_le level rest
    simp only [List.length_cons, List.length_append]
    omega
  have hunseen : ∀ field ∈ fields, field.name ∉ [] := fun _ _ => List.not_mem_nil
  have hfields := reads_fieldsOf h (fun _ => find?_of_nodup hdistinct) hdistinct hunseen hsteps
    hblank s rest
  rw [htext, record]
  refine (reads_peek _).bind ?_
  refine (reads_blanks_nil (stops_cons.mpr rfl)).bind ?_
  refine (reads_char _ _).bind ?_
  exact (reads_rest _).bind hfields

lemma takesBack_record {typeName : String} {fields : List (Field σ)}
    {values : List (String × RonValue)} {fill : σ → σ}
    (h : Fills e (depth - 2) (level + 1) fields values fill)
    (hdistinct : (fields.map Field.name).Nodup) :
    TakesBack (record typeName fields e depth) level (.record values) fill := by
  refine ⟨fun rest => ?_, fun s rest => reads_record typeName h hdistinct s _⟩
  simp [valueText, isGap, isBlank]

/-- A whole text that holds a record. -/
theorem read?_record (typeName : String) {fields : List (Field σ)}
    {values : List (String × RonValue)} {fill : σ → σ}
    (h : Fills {} (depth - 2) 1 fields values fill)
    (hdistinct : (fields.map Field.name).Nodup) (s : σ) :
    read? (fun e => record typeName fields e depth s) (valueText 0 (.record values)) =
      some (fill s) := by
  have hrecord := reads_record typeName h hdistinct s []
  rw [List.append_nil] at hrecord
  have hattributes (steps : ℕ) : (attributes (steps + 1) {}).Reads
      (valueText 0 (.record values)).toList {} (valueText 0 (.record values)).toList := by
    rw [attributes]
    refine (reads_blanks_nil (by simp [valueText, isGap, isBlank])).bind ?_
    refine (reads_peek _).bind ?_
    have hbracket : (valueText 0 (.record values)).toList.head? = some '(' := by simp [valueText]
    rw [hbracket]
    exact reads_pure _ _
  refine Reads.run?_eq ((reads_rest _).bind ((hattributes _).bind (hrecord.bind ?_)))
  exact (reads_blanks_nil stops_nil).bind (reads_pure _ _)

end Ron

end Sightline
