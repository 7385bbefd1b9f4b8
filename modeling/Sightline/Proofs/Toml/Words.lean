import Mathlib.Tactic
import Sightline.Proofs.Decimal.Notation
import Sightline.Proofs.Text.Reading
import Sightline.Toml.Lexical

/-!
# What the words of TOML are read from

Keys, strings and numbers are read back from the text they are written as, if what follows is the
end of a line or of an item.
-/

namespace Sightline

namespace Toml

open Reader

variable {cs rest word : List Char} {c : Char} {p : Char → Bool}

/-- A text goes on with the end of a line or of an item. -/
def Ends (cs : List Char) : Prop := ∃ c, cs.head? = some c ∧ (c = '\n' ∨ c = ',')

lemma Ends.stops (h : Ends cs) (hline : p '\n' = false) (hitem : p ',' = false) : Stops p cs := by
  obtain ⟨c, hhead, rfl | rfl⟩ := h
  · intro d hd
    rw [hhead, Option.mem_some_iff] at hd
    exact hd ▸ hline
  · intro d hd
    rw [hhead, Option.mem_some_iff] at hd
    exact hd ▸ hitem

/-! ### Blanks, keys and strings -/

lemma reads_blanks (hall : ∀ c ∈ word, isBlank c = true) (hstop : Stops isBlank rest) :
    blanks.Reads (word ++ rest) () rest :=
  (reads_takeWhile hall hstop).discard

lemma reads_blanks_nil (hstop : Stops isBlank rest) : blanks.Reads rest () rest := by
  have hnone : ∀ c ∈ ([] : List Char), isBlank c = true := by simp
  exact reads_blanks hnone hstop

lemma reads_lineEnd (rest : List Char) : lineEnd.Reads ('\n' :: rest) () rest := by
  unfold lineEnd comment
  refine (reads_blanks_nil (by simp [isBlank])).bind ?_
  refine ((reads_optionalChar_of_stops (by simp)).bind (reads_pure () _)).bind ?_
  exact (reads_peek _).bind rfl

/-- A key without quotes. -/
structure IsBare (key : String) : Prop where
  ne : key.toList ≠ []
  all : ∀ c ∈ key.toList, isBareChar c = true

/-- A key without quotes begins with one of its characters. -/
lemma IsBare.stops {key : String} (h : IsBare key) (hp : ∀ c, isBareChar c = true → p c = false) :
    Stops p (key.toList ++ rest) := by
  intro c hc
  rw [List.head?_append_of_ne_nil _ h.ne] at hc
  exact hp c (h.all c (List.mem_of_head? hc))

lemma not_isBlank_of_isBareChar (hc : isBareChar c = true) : isBlank c = false := by
  rw [← Bool.not_eq_true]
  intro hblank
  have hblank : c = ' ' ∨ c = '\t' := by simpa [isBlank] using hblank
  rcases hblank with rfl | rfl <;> cases hc

lemma reads_simpleKey {key : String} (hkey : IsBare key) (hstop : Stops isBareChar rest) :
    simpleKey.Reads (key.toList ++ rest) key rest := by
  have hbare : ∀ c, (key.toList ++ rest).head? = some c → isBareChar c = true := by
    intro c hc
    rw [List.head?_append_of_ne_nil _ hkey.ne] at hc
    exact hkey.all c (List.mem_of_head? hc)
  unfold simpleKey
  refine (reads_peek _).bind ?_
  split
  next hquote => exact absurd (hbare _ hquote) (by decide)
  next hquote => exact absurd (hbare _ hquote) (by decide)
  next =>
    refine (reads_takeWhile1 hkey.ne hkey.all hstop).bind ?_
    rw [String.ofList_toList]
    exact reads_pure key rest

/-- A key without points, with blanks after it. -/
lemma reads_key {key : String} (blank : List Char) (hkey : IsBare key)
    (hblank : ∀ c ∈ blank, isBlank c = true) (hstop : Stops isBlank rest)
    (hpoint : Stops (· == '.') rest) (hbare : Stops isBareChar (blank ++ rest)) :
    Toml.key.Reads (key.toList ++ (blank ++ rest)) [key] rest := by
  have hdepth : maxDepth - 1 = 78 + 1 := rfl
  rw [Toml.key, hdepth, dottedKey]
  refine (reads_blanks_nil (hkey.stops fun _ => not_isBlank_of_isBareChar)).bind ?_
  refine (reads_simpleKey hkey hbare).bind ?_
  refine (reads_blanks hblank hstop).bind ?_
  refine (reads_optionalChar_of_stops hpoint).bind ?_
  exact reads_pure _ _

/-- Characters of a string that stand for themselves, up to the closing quote. -/
lemma reads_basicRest (hall : ∀ c ∈ word, isBasicChar c = true) {fuel : ℕ}
    (hfuel : word.length < fuel) :
    (basicRest fuel).Reads (word ++ '"' :: rest) word rest := by
  induction fuel generalizing word with
  | zero => omega
  | succ fuel ih =>
    unfold basicRest
    cases word with
    | nil => exact (reads_next _ _).bind (reads_pure _ _)
    | cons c word =>
      have hc : isBasicChar c = true := hall c List.mem_cons_self
      refine (reads_next _ _).bind ?_
      split
      · cases hc
      · cases hc
      · rw [if_pos hc]
        have hrest := ih (fun c h => hall c (List.mem_cons_of_mem _ h)) (by simpa using hfuel)
        exact hrest.bind (reads_pure _ _)

/-- A string without escapes. -/
lemma reads_quoted {s : String} (hall : ∀ c ∈ s.toList, isBasicChar c = true)
    (hstop : Stops (· == '"') rest) :
    (quoted '"' true).Reads ('"' :: (s.toList ++ '"' :: rest)) s rest := by
  have hthree : ¬ ['"', '"', '"'] <+: '"' :: (s.toList ++ '"' :: rest) := by
    cases hs : s.toList with
    | nil =>
      rintro ⟨after, hafter⟩
      obtain rfl : '"' :: after = rest := by simpa using hafter
      simp at hstop
    | cons c word =>
      rintro ⟨after, hafter⟩
      obtain rfl : '"' = c := by
        have htail := List.tail_eq_of_cons_eq hafter
        exact List.head_eq_of_cons_eq htail
      exact absurd (hall '"' (by simp [hs])) (by decide)
  unfold quoted
  refine (reads_rest _).bind ?_
  refine (reads_optionalText_of_differs hthree).bind ?_
  rw [if_neg Bool.false_ne_true]
  refine (reads_char _ _).bind ?_
  have hfuel : s.toList.length < ('"' :: (s.toList ++ '"' :: rest)).length + 1 := by
    simp
    omega
  refine (reads_basicRest hall hfuel).bind ?_
  beta_reduce
  rw [String.ofList_toList]
  exact reads_pure s rest

/-! ### Numbers -/

/-- Digits without underscores are not spaced wrongly. -/
lemma isSpaced_of_isDigit (hdigits : ∀ c ∈ word, c.isDigit = true) :
    isSpaced true word = true := by
  induction word with
  | nil => rfl
  | cons c word ih =>
    have hc : (c == '_') = false := ne_of_isDigit (hdigits c List.mem_cons_self) rfl
    rw [isSpaced, hc]
    exact ih fun d hd => hdigits d (List.mem_cons_of_mem c hd)

lemma reads_digitRun (hword : word ≠ []) (hdigits : ∀ c ∈ word, c.isDigit = true)
    (hstop : Stops (fun c => c.isDigit || c == '_') rest) :
    (digitRun Char.isDigit).Reads (word ++ rest) word rest := by
  have hspaced : isSpaced false word = true := by
    obtain ⟨c, word, rfl⟩ := List.exists_cons_of_ne_nil hword
    have hc : (c == '_') = false := ne_of_isDigit (hdigits c List.mem_cons_self) rfl
    rw [isSpaced, hc]
    exact isSpaced_of_isDigit fun d hd => hdigits d (List.mem_cons_of_mem c hd)
  have hfilter : word.filter (· != '_') = word := by
    refine List.filter_eq_self.mpr fun c hc => ?_
    rw [bne, ne_of_isDigit (hdigits c hc) rfl, Bool.not_false]
  unfold digitRun
  refine (reads_takeWhile (fun c hc => by rw [hdigits c hc, Bool.true_or]) hstop).bind ?_
  rw [if_pos hspaced, hfilter]
  exact reads_pure word rest

/-- Digits without a needless zero in front. -/
lemma reads_decimalDigits (hword : word ≠ []) (hdigits : ∀ c ∈ word, c.isDigit = true)
    (hlean : word = ['0'] ∨ word.head? ≠ some '0')
    (hstop : Stops (fun c => c.isDigit || c == '_') rest) :
    decimalDigits.Reads (word ++ rest) word rest := by
  unfold decimalDigits
  refine (reads_peek _).bind ?_
  rw [List.head?_append_of_ne_nil _ hword]
  rcases hlean with rfl | hlean
  · exact (reads_char _ _).bind (reads_pure _ _)
  · split
    next hzero => exact absurd hzero hlean
    next => exact reads_digitRun hword hdigits hstop

/-- A sign in front of what begins with none. -/
lemma reads_sign (negative : Bool) (hminus : Stops (· == '-') rest)
    (hplus : Stops (· == '+') rest) :
    sign.Reads ((signText negative).toList ++ rest) negative rest := by
  unfold sign
  cases negative with
  | true => exact (reads_optionalChar _ _).bind (reads_pure _ _)
  | false =>
    exact (reads_optionalChar_of_stops hminus).bind
      ((reads_optionalChar_of_stops hplus).bind (reads_pure _ _))

lemma reads_power (hstop : Stops (fun c => c == 'e' || c == 'E') rest) :
    power.Reads rest none rest := by
  unfold power
  refine (reads_peek _).bind ?_
  split
  next hmark => exact absurd (hstop _ hmark) (by decide)
  next hmark => exact absurd (hstop _ hmark) (by decide)
  next => exact reads_pure _ _

lemma reads_floatOf {s : Scientific} {n : BinaryNumber} (hn : s.toBinary .double = n)
    (hfinite : n ≠ .infinity false) (cs : List Char) : (floatOf s).Reads cs (.float n) cs := by
  unfold floatOf
  rw [hn]
  split
  next => exact absurd rfl hfinite
  next => exact reads_pure _ cs

lemma reads_inRange {v n : ℤ} (hvalue : v = n) (hlow : TomlValue.minInteger ≤ n)
    (hhigh : n ≤ TomlValue.maxInteger) (cs : List Char) :
    (inRange v).Reads cs (.integer n) cs := by
  unfold inRange
  rw [hvalue, if_pos ⟨hlow, hhigh⟩]
  exact reads_pure _ cs

/-- Digits with a point are a float. -/
lemma reads_float {whole fraction : List Char} (h : PlainDigits whole fraction) (negative : Bool)
    {n : BinaryNumber} (hn : (plainDecimal whole fraction negative).toBinary .double = n)
    (hfinite : n ≠ .infinity false) (hends : Ends rest) :
    decimalNumber.Reads ((signText negative).toList ++ (whole ++ '.' :: (fraction ++ rest)))
      (.float n) rest := by
  have hwhole : ∀ c ∈ whole, c.isDigit = true := fun c hc =>
    h.digits c (List.mem_append_left _ hc)
  have hfraction : ∀ c ∈ fraction, c.isDigit = true := fun c hc =>
    h.digits c (List.mem_append_right _ hc)
  unfold decimalNumber
  refine (reads_sign negative ?_ ?_).bind ?_
  · exact stops_of_isDigit h.whole_ne hwhole fun c hc => ne_of_isDigit hc rfl
  · exact stops_of_isDigit h.whole_ne hwhole fun c hc => ne_of_isDigit hc rfl
  refine (reads_decimalDigits h.whole_ne hwhole h.lean (by simp)).bind ?_
  refine (reads_optionalChar _ _).bind ?_
  refine (reads_digitRun h.fraction_ne hfraction (hends.stops rfl rfl)).bind ?_
  refine (reads_power (hends.stops rfl rfl)).bind ?_
  obtain ⟨d, digits, rfl⟩ := List.exists_cons_of_ne_nil h.fraction_ne
  exact reads_floatOf hn hfinite rest

/-- Digits without a point are an integer. -/
lemma reads_integer {n : ℕ} (hn : (n : ℤ) ≤ TomlValue.maxInteger) (hends : Ends rest) :
    decimalNumber.Reads (digitsOf n ++ rest) (.integer n) rest := by
  have hne := digitsOf_ne_nil n
  have hdigits : ∀ c ∈ digitsOf n, c.isDigit = true := fun c hc => isDigit_of_mem_digitsOf hc
  have hlean : digitsOf n = ['0'] ∨ (digitsOf n).head? ≠ some '0' := by
    rcases Nat.eq_zero_or_pos n with rfl | hpos
    · exact Or.inl rfl
    · exact Or.inr (head?_digitsOf hpos)
  have hminus : Stops (· == '-') (digitsOf n ++ rest) :=
    stops_of_isDigit hne hdigits fun c hc => ne_of_isDigit hc rfl
  have hplus : Stops (· == '+') (digitsOf n ++ rest) :=
    stops_of_isDigit hne hdigits fun c hc => ne_of_isDigit hc rfl
  unfold decimalNumber
  refine (reads_sign false hminus hplus).bind ?_
  refine (reads_decimalDigits hne hdigits hlean (hends.stops rfl rfl)).bind ?_
  refine (reads_optionalChar_of_stops (hends.stops rfl rfl)).bind ?_
  refine (reads_pure [] rest).bind ?_
  refine (reads_power (hends.stops rfl rfl)).bind ?_
  have hvalue : (digitsValue (digitsOf n) : ℤ) = n := by rw [digitsValue_digitsOf]
  have hlow : TomlValue.minInteger ≤ n := by
    have hmin : TomlValue.minInteger ≤ 0 := by decide
    omega
  exact reads_inRange hvalue hlow hn rest

/-! ### Which kind of value follows -/

/-- A day or a time begins with digits and a mark. -/
lemma eq_of_startsDatetime (h : startsDatetime cs = true) :
    ∃ digits mark rest, cs = digits ++ mark :: rest ∧ digits ≠ [] ∧
      (∀ c ∈ digits, c.isDigit = true) ∧ (mark = ':' ∨ mark = '-') := by
  unfold startsDatetime at h
  split at h
  next a b c d e rest =>
    simp only [Bool.and_eq_true, Bool.or_eq_true, beq_iff_eq] at h
    obtain ⟨⟨ha, hb⟩, rfl | ⟨⟨hc, hd⟩, rfl⟩⟩ := h
    · exact ⟨[a, b], ':', d :: e :: rest, rfl, by simp, by simp [ha, hb], Or.inl rfl⟩
    · exact ⟨[a, b, c, d], '-', rest, rfl, by simp, by simp [ha, hb, hc, hd], Or.inr rfl⟩
  next a b rest _ =>
    simp only [Bool.and_eq_true] at h
    exact ⟨[a, b], ':', rest, rfl, by simp, by simp [h], Or.inl rfl⟩
  next => cases h

/-- A character after which digits are neither a day, a time nor a number in another base. -/
structure EndsDigits (c : Char) : Prop where
  notDigit : c.isDigit = false
  notMark : c ∉ ":-xob".toList

lemma startsDatetime_eq_false (hdigits : ∀ c ∈ word, c.isDigit = true) (hc : EndsDigits c) :
    startsDatetime (word ++ c :: rest) = false := by
  rw [← Bool.not_eq_true]
  intro hdate
  obtain ⟨digits, mark, rest', heq, -, hdigits', hmark⟩ := eq_of_startsDatetime hdate
  have hmark' : mark.isDigit = false := by rcases hmark with rfl | rfl <;> rfl
  -- the digits end at the first character that is none
  have hdrop := congrArg (List.dropWhile Char.isDigit) heq
  rw [(takeWhile_append hdigits (stops_cons.mpr hc.notDigit)).2,
    (takeWhile_append hdigits' (stops_cons.mpr hmark')).2] at hdrop
  obtain rfl : c = mark := List.head_eq_of_cons_eq hdrop
  exact hc.notMark (by rcases hmark with rfl | rfl <;> decide)

lemma startsDatetime_minus : startsDatetime ('-' :: cs) = false := by
  rw [← Bool.not_eq_true]
  intro hdate
  obtain ⟨digits, mark, rest, heq, hne, hdigits, -⟩ := eq_of_startsDatetime hdate
  obtain ⟨d, digits, rfl⟩ := List.exists_cons_of_ne_nil hne
  obtain rfl : '-' = d := List.head_eq_of_cons_eq heq
  cases hdigits '-' List.mem_cons_self

lemma notDigit_of_isBaseMark : ∀ c ∈ "xob".toList, c.isDigit = false := forall_mem_false rfl

/-- Digits begin a decimal number. -/
lemma reads_number {v : TomlValue} (hword : word ≠ []) (hdigits : ∀ c ∈ word, c.isDigit = true)
    (hc : EndsDigits c) (h : decimalNumber.Reads (word ++ c :: cs) v rest) :
    number.Reads (word ++ c :: cs) v rest := by
  unfold number
  refine (reads_rest _).bind ?_
  rw [startsDatetime_eq_false hdigits hc, if_neg Bool.false_ne_true]
  obtain ⟨d, word, rfl⟩ := List.exists_cons_of_ne_nil hword
  have hd := hdigits d List.mem_cons_self
  have hmark : ∀ mark ∈ "xob".toList, (d :: word ++ c :: cs)[1]? ≠ some mark := by
    intro mark hmark hsecond
    rcases second_of_append hword hdigits hsecond with hdigit | hhead
    · rw [notDigit_of_isBaseMark mark hmark] at hdigit
      cases hdigit
    · obtain rfl : c = mark := by simpa using hhead
      exact hc.notMark (List.mem_append_right ":-".toList hmark)
  split
  next hx => exact absurd (congrArg (·[1]?) hx) (hmark 'x' (by decide))
  next hx => exact absurd (congrArg (·[1]?) hx) (hmark 'o' (by decide))
  next hx => exact absurd (congrArg (·[1]?) hx) (hmark 'b' (by decide))
  next hplus =>
    obtain rfl : d = '+' := List.head_eq_of_cons_eq hplus
    cases hd
  next hminus =>
    obtain rfl : d = '-' := List.head_eq_of_cons_eq hminus
    cases hd
  next => exact h

/-- A minus and digits begin a decimal number. -/
lemma reads_number_of_minus {v : TomlValue} (hc : c.isDigit = true)
    (h : decimalNumber.Reads ('-' :: c :: cs) v rest) : number.Reads ('-' :: c :: cs) v rest := by
  unfold number
  refine (reads_rest _).bind ?_
  rw [startsDatetime_minus, if_neg Bool.false_ne_true]
  simpa [hc] using h

end Toml

end Sightline
