import Mathlib.Tactic
import Sightline.Proofs.Toml.Words
import Sightline.Toml.Parser
import Sightline.Toml.Printer

/-!
# TOML values read back

A value that fits the format is read back from its text. Arrays hold plain values only, as every
array of a document of two levels does.
-/

namespace Sightline

namespace Toml

open Reader BinaryFormat

variable {rest word : List Char} {c : Char} {p : Char → Bool} {v : TomlValue}

/-- A value on one line that the format can hold. -/
inductive IsPlain : TomlValue → Prop
  | string {s : String} (all : ∀ c ∈ s.toList, isBasicChar c = true) : IsPlain (.string s)
  | integer {n : ℕ} (fits : (n : ℤ) ≤ TomlValue.maxInteger) : IsPlain (.integer n)
  | float {n : BinaryNumber} {bits : ℕ} (encodes : double.Encodes n bits) : IsPlain (.float n)
  | boolean (b : Bool) : IsPlain (.boolean b)

/-- A value that a document of two levels may hold under a key. -/
inductive IsWritable : TomlValue → Prop
  | plain {v : TomlValue} (h : IsPlain v) : IsWritable v
  | array {items : List TomlValue} (h : ∀ v ∈ items, IsPlain v) : IsWritable (.array items)

/-! ### Numbers -/

/-- Words that stand for a number, with a sign in front. -/
lemma reads_wordNumber (negative : Bool) (rest : List Char) :
    wordNumber.Reads ((signText negative).toList ++ ("inf".toList ++ rest))
      (.float (.infinity negative)) rest := by
  unfold wordNumber
  refine (reads_sign negative (by simp) (by simp)).bind ?_
  exact (reads_optionalText _ _).bind (reads_pure _ _)

lemma reads_number_of_word (hc : c.isDigit = false) {cs : List Char}
    (h : wordNumber.Reads ('-' :: c :: cs) v rest) : number.Reads ('-' :: c :: cs) v rest := by
  unfold number
  refine (reads_rest _).bind ?_
  rw [startsDatetime_minus, if_neg Bool.false_ne_true]
  simpa [hc] using h

/-- A digit or a minus begins a number. -/
lemma reads_value_of_number (hc : c.isDigit = true ∨ c = '-') {cs : List Char}
    (h : number.Reads (c :: cs) v rest) (steps depth : ℕ) :
    (value (steps + 1) depth).Reads (c :: cs) v rest := by
  have hother : ∀ d ∈ '\x7b' :: "\"'[tfin".toList, c ≠ d := by
    rintro d hd rfl
    rcases hc with hc | rfl
    · have hnot : ∀ d ∈ '\x7b' :: "\"'[tfin".toList, d.isDigit = false := forall_mem_false rfl
      rw [hnot c hd] at hc
      cases hc
    · revert hd
      decide
  rw [value]
  refine (reads_peek _).bind ?_
  rw [List.head?_cons]
  split
  iterate 8 exact absurd (Option.some.inj ‹some c = some _›) (hother _ (by decide))
  · exact h
  · contradiction

lemma endsDigits_point : EndsDigits '.' := ⟨rfl, by decide⟩

lemma Ends.exists_cons (h : Ends rest) : ∃ c cs, rest = c :: cs ∧ EndsDigits c := by
  obtain ⟨c, hhead, hc⟩ := h
  obtain ⟨cs, rfl⟩ := List.head?_eq_some_iff.mp hhead
  refine ⟨c, cs, rfl, ?_⟩
  rcases hc with rfl | rfl
  · exact ⟨rfl, by decide⟩
  · exact ⟨rfl, by decide⟩

lemma reads_integerValue {n : ℕ} (hn : (n : ℤ) ≤ TomlValue.maxInteger) (hends : Ends rest)
    (steps depth : ℕ) :
    (value (steps + 1) depth).Reads (digitsOf n ++ rest) (.integer n) rest := by
  have hdigits : ∀ c ∈ digitsOf n, c.isDigit = true := fun c hc => isDigit_of_mem_digitsOf hc
  have hnumber := reads_integer hn hends
  obtain ⟨e, cs, rfl, he⟩ := hends.exists_cons
  have hnumber := reads_number (digitsOf_ne_nil n) hdigits he hnumber
  obtain ⟨d, ds, hd⟩ := List.exists_cons_of_ne_nil (digitsOf_ne_nil n)
  rw [hd] at hnumber hdigits ⊢
  exact reads_value_of_number (Or.inl (hdigits d List.mem_cons_self)) hnumber steps depth

/-- Digits with a point, with a sign in front. -/
lemma reads_floatValue {whole fraction : List Char} (h : PlainDigits whole fraction)
    (negative : Bool) {n : BinaryNumber}
    (hn : (plainDecimal whole fraction negative).toBinary double = n)
    (hfinite : n ≠ .infinity false) (hends : Ends rest) (steps depth : ℕ) :
    (value (steps + 1) depth).Reads
      ((signText negative).toList ++ (whole ++ '.' :: (fraction ++ rest))) (.float n) rest := by
  have hwhole : ∀ c ∈ whole, c.isDigit = true := fun c hc =>
    h.digits c (List.mem_append_left _ hc)
  have hfloat := reads_float h negative hn hfinite hends
  obtain ⟨d, ds, hd⟩ := List.exists_cons_of_ne_nil h.whole_ne
  have hfirst : d.isDigit = true := hwhole d (hd ▸ List.mem_cons_self)
  cases negative with
  | false =>
    have hnumber := reads_number h.whole_ne hwhole endsDigits_point hfloat
    rw [hd] at hnumber ⊢
    exact reads_value_of_number (Or.inl hfirst) hnumber steps depth
  | true =>
    rw [hd] at hfloat ⊢
    exact reads_value_of_number (Or.inr rfl) (reads_number_of_minus hfirst hfloat) steps depth

/-- An infinity is a word. -/
lemma reads_infinityValue (negative : Bool) (rest : List Char) (steps depth : ℕ) :
    (value (steps + 1) depth).Reads ((signText negative).toList ++ ("inf".toList ++ rest))
      (.float (.infinity negative)) rest := by
  have hword := reads_wordNumber negative rest
  cases negative with
  | false =>
    rw [value]
    exact (reads_peek _).bind hword
  | true => exact reads_value_of_number (Or.inr rfl) (reads_number_of_word rfl hword) steps depth

/-! ### Values on one line -/

lemma spelledBy_valueText {n : BinaryNumber} {bits : ℕ} (h : double.Encodes n bits) :
    SpelledBy double n bits (valueText (.float n)).toList := by
  rw [valueText]
  exact shortestText_spelledBy rfl (Or.inr rfl) h

theorem reads_plainValue (h : IsPlain v) (hends : Ends rest) (steps depth : ℕ) :
    (value (steps + 1) depth).Reads ((valueText v).toList ++ rest) v rest := by
  cases h with
  | @string s all =>
    have htext : (valueText (.string s)).toList ++ rest = '"' :: (s.toList ++ '"' :: rest) := by
      simp [valueText]
    rw [htext, value]
    refine (reads_peek _).bind ?_
    exact (reads_quoted all (hends.stops rfl rfl)).bind (reads_pure _ _)
  | @integer n fits =>
    have htext : (valueText (.integer n)).toList = digitsOf n := by
      rw [valueText]
      exact String.toList_ofList
    rw [htext]
    exact reads_integerValue fits hends steps depth
  | @float n bits encodes =>
    have hspelled := spelledBy_valueText encodes
    have hdecode := encodes.decode_eq
    generalize (valueText (.float n)).toList = text at hspelled ⊢
    cases hspelled with
    | infinity negative =>
      rw [List.append_assoc]
      exact reads_infinityValue negative rest steps depth
    | finite negative digits rounded =>
      simp only [List.append_assoc, List.cons_append]
      refine reads_floatValue digits negative ?_ BinaryNumber.noConfusion hends steps depth
      rw [Scientific.toBinary, rounded, hdecode]
  | boolean b =>
    rw [value]
    cases b with
    | true => exact (reads_peek _).bind ((reads_text "true".toList rest).bind (reads_pure _ _))
    | false => exact (reads_peek _).bind ((reads_text "false".toList rest).bind (reads_pure _ _))

/-- The characters that a value begins with. -/
def firstChars : List Char := "\"-tfi[0123456789".toList

lemma exists_firstChar (h : IsWritable v) :
    ∃ c ∈ firstChars, ∃ cs, (valueText v).toList = c :: cs := by
  cases h with
  | array h => exact ⟨'[', by decide, _, by simp only [valueText, String.toList_append]; rfl⟩
  | plain h =>
    cases h with
    | string all => exact ⟨'"', by decide, _, by simp only [valueText, String.toList_append]; rfl⟩
    | @integer n fits =>
      obtain ⟨d, ds, hd⟩ := List.exists_cons_of_ne_nil (digitsOf_ne_nil n)
      have hfirst : d.isDigit = true := isDigit_of_mem_digitsOf (hd ▸ List.mem_cons_self)
      refine ⟨d, List.mem_append_right "\"-tfi[".toList (mem_of_isDigit hfirst), ds, ?_⟩
      rw [← hd, valueText]
      exact String.toList_ofList
    | float encodes =>
      obtain ⟨c, hc, cs, hcs⟩ := (spelledBy_valueText encodes).exists_firstChar
      have hsubset : "-i0123456789".toList ⊆ firstChars := by decide
      exact ⟨c, hsubset hc, cs, hcs⟩
    | boolean b =>
      cases b with
      | false => exact ⟨'f', by decide, _, by rw [valueText]; rfl⟩
      | true => exact ⟨'t', by decide, _, by rw [valueText]; rfl⟩

/-- Values begin with none of the characters that stand between them. -/
lemma stops_valueText (h : IsWritable v) (hp : ∀ c ∈ firstChars, p c = false) :
    Stops p ((valueText v).toList ++ rest) := by
  obtain ⟨c, hc, cs, heq⟩ := exists_firstChar h
  rw [heq]
  exact stops_cons.mpr (hp c hc)

/-! ### Arrays -/

/-- A character that is skipped between items. -/
def isTrivia (c : Char) : Bool := isBlank c || c == '\n' || c == '\r' || c == '#'

lemma afterTrivia_of_stops (h : Stops isTrivia rest) : afterTrivia false rest = rest := by
  cases rest with
  | nil => rfl
  | cons c cs =>
    have hc : isTrivia c = false := stops_cons.mp h
    simp only [isTrivia, Bool.or_eq_false_iff, beq_eq_false_iff_ne] at hc
    obtain ⟨⟨⟨hblank, hline⟩, hreturn⟩, hcomment⟩ := hc
    rw [afterTrivia]
    · simp [hblank, hline, hcomment]
    · exact fun _ hc => absurd hc hreturn

lemma reads_trivia (word : List Char) (hall : ∀ c ∈ word, (isBlank c || c == '\n') = true)
    (h : Stops isTrivia rest) :
    trivia.Reads (word ++ rest) () rest := by
  have hafter : afterTrivia false (word ++ rest) = rest := by
    induction word with
    | nil => exact afterTrivia_of_stops h
    | cons c word ih =>
      have hc := hall c List.mem_cons_self
      have hword := ih fun d hd => hall d (List.mem_cons_of_mem c hd)
      rw [List.cons_append, afterTrivia]
      · rcases Bool.eq_false_or_eq_true (c == '\n') with hline | hline
        · simpa [hline] using hword
        · have hblank : isBlank c = true := by simpa [hline] using hc
          simpa [hline, hblank] using hword
      · rintro rest' rfl
        cases hc
  rw [Reads, trivia, hafter]

/-- The items of an array, each on a line. -/
lemma reads_items {items : List TomlValue} (hplain : ∀ v ∈ items, IsPlain v) {steps : ℕ}
    (hsteps : items.length < steps) (depth : ℕ) (rest : List Char) :
    (Toml.items steps depth).Reads ('\n' :: ((itemsText items).toList ++ ']' :: rest)) items
      rest := by
  induction items generalizing steps with
  | nil =>
    obtain ⟨steps, rfl⟩ := Nat.exists_eq_add_one.mpr hsteps
    rw [Toml.items]
    refine (reads_trivia ['\n'] (List.all_eq_true.mp rfl) (by simp [isTrivia, isBlank])).bind ?_
    exact (reads_optionalChar _ _).bind (reads_pure _ _)
  | cons item items ih =>
    obtain ⟨steps, rfl⟩ := Nat.exists_eq_add_one.mpr (Nat.zero_lt_of_lt hsteps)
    have hitem : IsPlain item := hplain item List.mem_cons_self
    have hfewer : items.length < steps := by simpa using hsteps
    have hitems := ih (fun v hv => hplain v (List.mem_cons_of_mem item hv)) hfewer
    let after := '\n' :: ((itemsText items).toList ++ ']' :: rest)
    have htext : '\n' :: ((itemsText (item :: items)).toList ++ ']' :: rest) =
        "\n    ".toList ++ ((valueText item).toList ++ ',' :: after) := by
      simp [itemsText, after]
    obtain ⟨fuel, rfl⟩ := Nat.exists_eq_add_one.mpr (Nat.zero_lt_of_lt hfewer)
    have hstart {p : Char → Bool} (hp : ∀ c ∈ firstChars, p c = false) :
        Stops p ((valueText item).toList ++ ',' :: after) := stops_valueText (.plain hitem) hp
    rw [htext, Toml.items]
    refine (reads_trivia "\n    ".toList (List.all_eq_true.mp rfl)
      (hstart (forall_mem_false rfl))).bind ?_
    refine (reads_optionalChar_of_stops (hstart (forall_mem_false rfl))).bind ?_
    refine (reads_plainValue hitem ⟨',', rfl, Or.inr rfl⟩ fuel depth).bind ?_
    refine (reads_trivia [] (by simp) (by simp [isTrivia, isBlank])).bind ?_
    refine (reads_optionalChar _ _).bind ?_
    exact hitems.bind (reads_pure _ _)

/-- An array takes fewer steps than its text has characters. -/
lemma length_lt_itemsText (items : List TomlValue) :
    items.length ≤ (itemsText items).toList.length := by
  induction items with
  | nil => exact Nat.le_refl _
  | cons item items ih =>
    simp only [itemsText, String.toList_append, List.length_append, List.length_cons]
    have htwo : ",\n".toList.length = 2 := rfl
    omega

theorem reads_value (h : IsWritable v) (hends : Ends rest) {steps : ℕ}
    (hsteps : (valueText v).toList.length < steps) :
    (value steps 0).Reads ((valueText v).toList ++ rest) v rest := by
  obtain ⟨steps, rfl⟩ := Nat.exists_eq_add_one.mpr (Nat.zero_lt_of_lt hsteps)
  cases h with
  | plain h => exact reads_plainValue h hends steps 0
  | @array items h =>
    have htext : (valueText (.array items)).toList =
        '[' :: '\n' :: ((itemsText items).toList ++ [']']) := by
      simp [valueText]
    have hitems : items.length < steps := by
      have hlength := length_lt_itemsText items
      rw [htext] at hsteps
      simp only [List.length_cons, List.length_append, List.length_nil] at hsteps
      omega
    have hread := reads_items h hitems 1 rest
    rw [htext, value]
    simp only [List.cons_append, List.append_assoc, List.nil_append]
    refine (reads_peek _).bind ?_
    refine (reads_char _ _).bind ?_
    exact hread.bind (reads_pure _ _)

end Toml

end Sightline
