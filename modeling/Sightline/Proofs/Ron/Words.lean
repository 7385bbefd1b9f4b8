import Mathlib.Tactic
import Sightline.Proofs.Decimal.Notation
import Sightline.Proofs.Single.Bits
import Sightline.Proofs.Text.Reading
import Sightline.Ron.Reader

/-!
# What the words of RON are read from

Blanks, names, numbers and truth values are read back from the text they are written as, if a comma
or a closing bracket follows.
-/

namespace Sightline

open Reader

namespace Ron

variable {cs rest word : List Char} {c : Char} {p : Char → Bool}

/-- A text goes on with the end of a value. -/
def Ends (cs : List Char) : Prop := ∃ c, cs.head? = some c ∧ (c = ',' ∨ c = ')')

lemma ends_comma : Ends (',' :: rest) := ⟨',', rfl, Or.inl rfl⟩

lemma ends_bracket : Ends (')' :: rest) := ⟨')', rfl, Or.inr rfl⟩

lemma Ends.stops (h : Ends cs) (hcomma : p ',' = false) (hbracket : p ')' = false) :
    Stops p cs := by
  obtain ⟨c, hhead, rfl | rfl⟩ := h
  · intro d hd
    rw [hhead, Option.mem_some_iff] at hd
    exact hd ▸ hcomma
  · intro d hd
    rw [hhead, Option.mem_some_iff] at hd
    exact hd ▸ hbracket

/-! ### Blanks -/

/-- A character that is skipped between values, or begins a comment. -/
def isGap (c : Char) : Bool := isBlank c || c == '/'

lemma reads_blanks (hall : ∀ c ∈ word, isBlank c = true) (hstop : Stops isGap rest) :
    blanks.Reads (word ++ rest) () rest := by
  have hblank : Stops isBlank rest := fun c hc => (Bool.or_eq_false_iff.mp (hstop c hc)).1
  have hafter : afterBlanks ((word ++ rest).length + 1) (word ++ rest) = some rest := by
    rw [afterBlanks, (takeWhile_append hall hblank).2]
    cases rest with
    | nil => rfl
    | cons c rest =>
      have hslash : c ≠ '/' := by
        have hc := (Bool.or_eq_false_iff.mp (stops_cons.mp hstop)).2
        exact beq_eq_false_iff_ne.mp hc
      split
      next heq => exact absurd (List.head_eq_of_cons_eq heq) hslash
      next heq => exact absurd (List.head_eq_of_cons_eq heq) hslash
      next heq => exact absurd (List.head_eq_of_cons_eq heq) hslash
      next => rfl
  rw [Reads, blanks, hafter]
  rfl

lemma reads_blanks_nil (hstop : Stops isGap rest) : blanks.Reads rest () rest := by
  have hnone : ∀ c ∈ ([] : List Char), isBlank c = true := by simp
  exact reads_blanks hnone hstop

/-- A comma with blanks after it. -/
lemma reads_comma (hall : ∀ c ∈ word, isBlank c = true) (hstop : Stops isGap rest) :
    comma.Reads (',' :: (word ++ rest)) true rest := by
  unfold comma
  refine (reads_blanks_nil (by simp [isGap, isBlank])).bind ?_
  refine (reads_optionalChar _ _).bind ?_
  exact (reads_blanks hall hstop).bind (reads_pure _ _)

lemma reads_comma_of_bracket (rest : List Char) :
    comma.Reads (')' :: rest) false (')' :: rest) := by
  unfold comma
  refine (reads_blanks_nil (by simp [isGap, isBlank])).bind ?_
  exact (reads_optionalChar_of_stops (by simp)).bind (reads_pure _ _)

/-! ### Names -/

/-- A name without unusual characters. -/
structure IsName (s : String) : Prop where
  start : s.toList.head?.any isNameStart = true
  all : s.toList.all isNameChar = true

instance (s : String) : Decidable (IsName s) :=
  decidable_of_iff (s.toList.head?.any isNameStart = true ∧ s.toList.all isNameChar = true)
    ⟨fun h => ⟨h.1, h.2⟩, fun h => ⟨h.start, h.all⟩⟩

lemma IsName.exists_cons {s : String} (h : IsName s) :
    ∃ c cs, s.toList = c :: cs ∧ isNameStart c = true := by
  obtain ⟨c, hhead, hstart⟩ := (Option.any_eq_true _ _).mp h.start
  obtain ⟨cs, hcs⟩ := List.head?_eq_some_iff.mp hhead
  exact ⟨c, cs, hcs, hstart⟩

lemma reads_name {s : String} (hs : IsName s) (hc : c = ':' ∨ c = ',') (rest : List Char) :
    name.Reads (s.toList ++ c :: rest) s (c :: rest) := by
  obtain ⟨d, ds, hd, hstart⟩ := hs.exists_cons
  have hall : ∀ c ∈ s.toList, isNameChar c = true := List.all_eq_true.mp hs.all
  have hstop : Stops isNameChar (c :: rest) := by
    rcases hc with rfl | rfl <;> exact stops_cons.mpr rfl
  obtain ⟨htake, hdrop⟩ := takeWhile_append hall hstop
  have hne : s.toList ≠ [] := hd ▸ List.cons_ne_nil d ds
  have hmark : ∀ mark ∈ "\"#".toList, (s.toList ++ c :: rest)[1]? ≠ some mark := by
    intro mark hmark hsecond
    rcases second_of_append hne hall hsecond with hname | hhead
    · have hno : ∀ mark ∈ "\"#".toList, isNameChar mark = false := forall_mem_false rfl
      rw [hno mark hmark] at hname
      cases hname
    · obtain rfl : c = mark := by simpa using hhead
      rcases hc with rfl | rfl <;> revert hmark <;> decide
  unfold Reads name
  split
  next heq => exact absurd (congrArg (·[1]?) heq) (hmark '"' (by decide))
  next heq => simp [hd] at heq
  next heq => exact absurd (congrArg (·[1]?) heq) (hmark '#' (by decide))
  next e es _ _ _ heq =>
    obtain rfl : d = e := by simpa [hd] using congrArg List.head? heq
    rw [if_pos hstart, htake, hdrop, String.ofList_toList]
  next heq => simp at heq

/-! ### Words -/

lemma startsWord_append (word : List Char) (hstop : Stops isNameChar rest) :
    startsWord word (word ++ rest) = true := by
  have hhead : rest.head?.any isNameChar = false := by
    cases rest with
    | nil => rfl
    | cons c rest => exact stops_cons.mp hstop
  simp [startsWord, hhead]

lemma startsWord_eq_false (h : ¬ word <+: cs) : startsWord word cs = false := by
  have hfalse : word.isPrefixOf cs = false := by
    rw [Bool.eq_false_iff, Ne, List.isPrefixOf_iff_prefix]
    exact h
  rw [startsWord, hfalse, Bool.false_and]

/-- The first of several words that the text goes on with. -/
lemma reads_oneOf (before : List String) (w : String) (after : List String)
    (hbefore : ∀ v ∈ before, ¬ v.toList <+: w.toList ++ rest) (hstop : Stops isNameChar rest) :
    (oneOf (before ++ w :: after)).Reads (w.toList ++ rest) (some w) rest := by
  have hfind : (before ++ w :: after).find? (fun v => startsWord v.toList (w.toList ++ rest)) =
      some w := by
    rw [List.find?_eq_some_iff_append]
    refine ⟨startsWord_append _ hstop, before, after, rfl, fun v hv => ?_⟩
    rw [startsWord_eq_false (hbefore v hv), Bool.not_false]
  have hdrop : (w.toList ++ rest).drop w.length = rest := by
    rw [← String.length_toList, List.drop_left]
  rw [Reads, oneOf, hfind]
  simp only [hdrop]

lemma reads_oneOf_none {words : List String} (h : ∀ v ∈ words, ¬ v.toList <+: cs) :
    (oneOf words).Reads cs none cs := by
  have hfind : words.find? (fun v => startsWord v.toList cs) = none := by
    rw [List.find?_eq_none]
    intro v hv
    rw [startsWord_eq_false (h v hv)]
    exact Bool.false_ne_true
  rw [Reads, oneOf, hfind]

lemma reads_boolean (b : Bool) (hends : Ends rest) :
    boolean.Reads ((if b then "true" else "false").toList ++ rest) b rest := by
  have hstop : Stops isNameChar rest := hends.stops rfl rfl
  unfold boolean
  cases b with
  | true =>
    have hword := reads_oneOf [] "true" ["false"] (by simp) hstop
    exact hword.bind (reads_pure _ _)
  | false =>
    have htrue : ∀ v ∈ ["true"], ¬ v.toList <+: "false".toList ++ rest := by simp
    have hword := reads_oneOf ["true"] "false" [] htrue hstop
    exact hword.bind (reads_pure _ _)

/-! ### Whole numbers -/

lemma isIntegerChar_of_isDigit (hc : c.isDigit = true) : isIntegerChar c = true := by
  have hall : ∀ d ∈ "0123456789".toList, isIntegerChar d = true :=
    List.all_eq_true.mp rfl
  exact hall c (mem_of_isDigit hc)

lemma hexValue?_of_isDigit (hc : c.isDigit = true) :
    hexValue? c = some (c.toNat - 48) ∧ c.toNat - 48 < 10 := by
  have hall : ("0123456789".toList.all fun d =>
      hexValue? d == some (d.toNat - 48) && decide (d.toNat - 48 < 10)) = true := by decide
  simpa using List.all_eq_true.mp hall c (mem_of_isDigit hc)

lemma valueInBase?_digits (hdigits : ∀ c ∈ word, c.isDigit = true) :
    valueInBase? 10 word = some (digitsValue word) := by
  unfold valueInBase? digitsValue
  generalize 0 = n
  induction word generalizing n with
  | nil => rfl
  | cons c word ih =>
    obtain ⟨hvalue, hlt⟩ := hexValue?_of_isDigit (hdigits c List.mem_cons_self)
    rw [List.foldlM_cons, List.foldl_cons, hvalue]
    simp only [Option.bind_eq_bind, Option.bind_some, if_pos hlt]
    exact ih (fun d hd => hdigits d (List.mem_cons_of_mem c hd)) _

/-- Digits are not marked with another base. -/
lemma baseOf_digits (hword : word ≠ []) (hdigits : ∀ c ∈ word, c.isDigit = true)
    (hends : Ends rest) : baseOf (word ++ rest) = (10, 0) := by
  have hmark : ∀ mark ∈ "xob".toList, (word ++ rest)[1]? ≠ some mark := by
    intro mark hmark hsecond
    rcases second_of_append hword hdigits hsecond with hdigit | hhead
    · have hno : ∀ mark ∈ "xob".toList, mark.isDigit = false := forall_mem_false rfl
      rw [hno mark hmark] at hdigit
      cases hdigit
    · obtain ⟨c, hc, hend⟩ := hends
      obtain rfl : c = mark := Option.some.inj (hc.symm.trans hhead)
      rcases hend with rfl | rfl <;> revert hmark <;> decide
  unfold baseOf
  split
  next heq => exact absurd (congrArg (·[1]?) heq) (hmark 'x' (by decide))
  next heq => exact absurd (congrArg (·[1]?) heq) (hmark 'o' (by decide))
  next heq => exact absurd (congrArg (·[1]?) heq) (hmark 'b' (by decide))
  next => rfl

lemma reads_natural (n : ℕ) (hends : Ends rest) :
    natural.Reads (digitsOf n ++ rest) n rest := by
  have hdigits : ∀ c ∈ digitsOf n, c.isDigit = true := fun c hc => isDigit_of_mem_digitsOf hc
  have hhead : (digitsOf n).head? ≠ some '_' := by
    intro hmark
    cases hdigits _ (List.mem_of_head? hmark)
  have hfilter : (digitsOf n).filter (· != '_') = digitsOf n := by
    refine List.filter_eq_self.mpr fun c hc => ?_
    rw [bne, ne_of_isDigit (hdigits c hc) rfl, Bool.not_false]
  have hvalue : valueInBase? 10 ((digitsOf n).filter (· != '_')) = some n := by
    rw [hfilter, valueInBase?_digits hdigits, digitsValue_digitsOf]
  have hnone : (Reader.exactly 0 fun _ => true).Reads (digitsOf n ++ rest) []
      (digitsOf n ++ rest) := by
    simp [Reads, Reader.exactly]
  unfold natural
  refine (reads_rest _).bind ?_
  rw [baseOf_digits (digitsOf_ne_nil n) hdigits hends]
  refine hnone.bind ?_
  refine (reads_takeWhile1 (digitsOf_ne_nil n)
    (fun c hc => isIntegerChar_of_isDigit (hdigits c hc)) (hends.stops rfl rfl)).bind ?_
  rw [if_neg hhead]
  exact (reads_pure _ _).bind (reads_lift hvalue _)

/-! ### Floats -/

/-- Digits with a point are read with their sign. -/
lemma ofChars?_plainDigits {whole fraction : List Char} (h : PlainDigits whole fraction)
    (negative : Bool) :
    Scientific.ofChars? ((signText negative).toList ++ (whole ++ '.' :: fraction)) =
      some (plainDecimal whole fraction negative) := by
  have hwhole : ∀ c ∈ whole, c.isDigit = true := fun c hc =>
    h.digits c (List.mem_append_left _ hc)
  have hfraction : ∀ c ∈ fraction, c.isDigit = true := fun c hc =>
    h.digits c (List.mem_append_right _ hc)
  have hparts : DecimalParts.ofChars? (whole ++ '.' :: fraction) =
      some { whole := whole, fraction := fraction } := by
    have hpoint : Stops Char.isDigit ('.' :: fraction) := stops_cons.mpr rfl
    obtain ⟨htake, hdrop⟩ := takeWhile_append hwhole hpoint
    obtain ⟨htake', hdrop'⟩ := takeWhile_append hfraction stops_nil
    rw [List.append_nil] at htake' hdrop'
    unfold DecimalParts.ofChars?
    simp [htake, hdrop, htake', hdrop', h.whole_ne]
  cases negative with
  | true =>
    have hsign : (signText true).toList ++ (whole ++ '.' :: fraction) =
        '-' :: (whole ++ '.' :: fraction) := rfl
    rw [hsign, Scientific.ofChars?, hparts]
    rfl
  | false =>
    obtain ⟨d, ds, hd⟩ := List.exists_cons_of_ne_nil h.whole_ne
    have hfirst : d.isDigit = true := hwhole d (hd ▸ List.mem_cons_self)
    have hsign : (signText false).toList ++ (whole ++ '.' :: fraction) =
        whole ++ '.' :: fraction := rfl
    rw [hsign, Scientific.ofChars?, hparts]
    · rfl
    · rintro rest heq
      obtain rfl : d = '+' := by simpa [hd] using congrArg List.head? heq
      cases hfirst
    · rintro rest heq
      obtain rfl : d = '-' := by simpa [hd] using congrArg List.head? heq
      cases hfirst

/-- No word is a number that begins with a digit. -/
lemma not_prefix_of_isDigit (hc : c.isDigit = true) (negative : Bool) (cs : List Char) :
    ∀ v ∈ floatWords.map Prod.fst,
      ¬ v.toList <+: (signText negative).toList ++ c :: cs := by
  have hletter : ∀ d ∈ "iN+-".toList, d ≠ c := by
    rintro d hd rfl
    have hno : ∀ d ∈ "iN+-".toList, d.isDigit = false := forall_mem_false rfl
    rw [hno d hd] at hc
    cases hc
  have hi := hletter 'i' (by decide)
  have hN := hletter 'N' (by decide)
  have hplus := hletter '+' (by decide)
  have hminus := hletter '-' (by decide)
  cases negative <;> simp [floatWords, signText, List.cons_prefix_cons, hi, hN, hplus, hminus]

lemma isFloatChar_of_mem {whole fraction : List Char} (h : PlainDigits whole fraction)
    (negative : Bool) (hc : c ∈ (signText negative).toList ++ (whole ++ '.' :: fraction)) :
    isFloatChar c = true := by
  have hdigit : c ∈ whole ++ fraction → isFloatChar c = true := fun hc => by
    simp [isFloatChar, h.digits c hc]
  simp only [List.mem_append, List.mem_cons] at hc hdigit
  rcases hc with hc | hc | rfl | hc
  · cases negative with
    | false => cases hc
    | true =>
      obtain rfl : c = '-' := by simpa [signText] using hc
      rfl
  · exact hdigit (Or.inl hc)
  · rfl
  · exact hdigit (Or.inr hc)

open BinaryFormat

lemma ofBits_neg_infinity : -Float32.ofBits 0x7f800000 = Float32.ofBits 0xff800000 := by
  refine Single.ext_bits ?_
  decide +kernel

/-- A single is read back from what spells its bits. -/
theorem reads_float {x : Float32} {n : BinaryNumber} (h : SpelledBy single n x.toBits.toNat cs)
    (hends : Ends rest) : Ron.float.Reads (cs ++ rest) x rest := by
  have hx : Float32.ofBits (UInt32.ofNat x.toBits.toNat) = x := by
    rw [UInt32.ofNat_toNat, Single.ofBits_toBits]
  generalize x.toBits.toNat = bits at h hx
  unfold float
  cases h with
  | infinity negative =>
    have hstop : Stops isNameChar rest := hends.stops rfl rfl
    cases negative with
    | false =>
      have hword := reads_oneOf [] "inf" ["+inf", "-inf", "NaN", "+NaN", "-NaN"] (by simp) hstop
      exact hword.bind (reads_lift (congrArg some hx) rest)
    | true =>
      have hother : ∀ v ∈ ["inf", "+inf"], ¬ v.toList <+: "-inf".toList ++ rest := by simp
      have hword := reads_oneOf ["inf", "+inf"] "-inf" ["NaN", "+NaN", "-NaN"] hother hstop
      exact hword.bind (reads_lift (congrArg some (ofBits_neg_infinity.trans hx)) rest)
  | @finite negative m q _ whole fraction digits rounded =>
    have hnone : ∀ v ∈ floatWords.map Prod.fst,
        ¬ v.toList <+: (signText negative).toList ++ (whole ++ '.' :: fraction) ++ rest := by
      obtain ⟨d, ds, hd⟩ := List.exists_cons_of_ne_nil digits.whole_ne
      have hfirst : d.isDigit = true := digits.digits d (by simp [hd])
      simpa [hd] using not_prefix_of_isDigit hfirst negative (ds ++ '.' :: fraction ++ rest)
    have hchars : ∀ c ∈ (signText negative).toList ++ (whole ++ '.' :: fraction),
        isFloatChar c = true := fun c hc => isFloatChar_of_mem digits negative hc
    refine (reads_oneOf_none hnone).bind ?_
    refine (reads_takeWhile hchars (hends.stops rfl rfl)).bind ?_
    refine (reads_lift (ofChars?_plainDigits digits negative) rest).bind ?_
    rw [Scientific.toSingle, rounded, hx]
    exact reads_pure x rest

lemma stops_of_spelledBy {n : BinaryNumber} {bits : ℕ} (h : SpelledBy single n bits cs) :
    Stops isGap (cs ++ rest) := by
  obtain ⟨c, hc, cs', rfl⟩ := h.exists_firstChar
  have hgap : ∀ c ∈ "-i0123456789".toList, isGap c = false := forall_mem_false rfl
  exact stops_cons.mpr (hgap c hc)

/-- Three singles in brackets. -/
theorem reads_triple {x y z : Float32} {l m n : BinaryNumber} {xs ys zs : List Char}
    (hx : SpelledBy single l x.toBits.toNat xs) (hy : SpelledBy single m y.toBits.toNat ys)
    (hz : SpelledBy single n z.toBits.toNat zs) (rest : List Char) :
    triple.Reads ('(' :: (xs ++ ',' :: ' ' :: (ys ++ ',' :: ' ' :: (zs ++ ')' :: rest))))
      (x, y, z) rest := by
  unfold triple
  have hblank : ∀ c ∈ [' '], isBlank c = true := List.all_eq_true.mp rfl
  have hitem {x n xs ys after} (h : SpelledBy single n (Float32.toBits x).toNat xs)
      (hys : Stops isGap (ys ++ after)) :
      (do blanks; let x ← float; return (x, ← comma) : Reader (Float32 × Bool)).Reads
        (xs ++ ',' :: ' ' :: (ys ++ after)) (x, true) (ys ++ after) := by
    refine (reads_blanks_nil (stops_of_spelledBy h)).bind ?_
    refine (reads_float h ends_comma).bind ?_
    exact (reads_comma hblank hys).bind (reads_pure _ _)
  refine (reads_char _ _).bind ?_
  refine (hitem hx (stops_of_spelledBy hy)).bind ?_
  simp only [Bool.not_true, Bool.false_eq_true, if_false]
  refine (hitem hy (stops_of_spelledBy hz)).bind ?_
  simp only [Bool.not_true, Bool.false_eq_true, if_false]
  have hlast : (do blanks; let x ← float; return (x, ← comma) : Reader (Float32 × Bool)).Reads
      (zs ++ ')' :: rest) (z, false) (')' :: rest) := by
    refine (reads_blanks_nil (stops_of_spelledBy hz)).bind ?_
    refine (reads_float hz ends_bracket).bind ?_
    exact (reads_comma_of_bracket rest).bind (reads_pure _ _)
  refine hlast.bind ?_
  exact (reads_char _ _).bind (reads_pure _ _)

end Ron

end Sightline
