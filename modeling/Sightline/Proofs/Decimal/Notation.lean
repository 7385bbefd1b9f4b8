import Mathlib.Tactic
import Sightline.Decimal.Text
import Sightline.Proofs.Decimal.Search
import Sightline.Proofs.Text.Reading

/-!
# Numbers in decimal notation

A number is written with a point and digits on both sides of it. Read back, the digits are rounded
to the number that was written.
-/

namespace Sightline

/-! ### Digits -/

lemma digitsValue_eq (cs : List Char) : digitsValue cs = Nat.ofDigitChars 10 cs 0 := rfl

@[simp] lemma digitsValue_digitsOf (n : ℕ) : digitsValue (digitsOf n) = n :=
  Nat.ofDigitChars_ten_toDigits

lemma isDigit_of_mem_digitsOf {n : ℕ} {c : Char} (h : c ∈ digitsOf n) : c.isDigit = true :=
  Nat.isDigit_of_mem_toDigits (by norm_num) le_rfl h

lemma digitsOf_ne_nil (n : ℕ) : digitsOf n ≠ [] := Nat.toDigits_ne_nil

lemma digitChar_ne_zero : ∀ n < 10, 0 < n → Nat.digitChar n ≠ '0' := by decide

/-- Only zero is written with a zero in front. -/
lemma head?_digitsOf {n : ℕ} (hn : 0 < n) : (digitsOf n).head? ≠ some '0' := by
  induction n using Nat.base_induction 10 (by norm_num) with
  | single d hd =>
    rw [digitsOf, Nat.toDigits_of_lt_base hd]
    simpa using digitChar_ne_zero d hd hn
  | digit n d hd hpos ih =>
    rw [digitsOf, ← Nat.toDigits_append_toDigits (by norm_num) hpos hd,
      List.head?_append_of_ne_nil _ Nat.toDigits_ne_nil]
    exact ih hpos

/-- The number of digits of a number. -/
lemma digitsOf_bounds {n : ℕ} (hn : 0 < n) :
    10 ^ ((digitsOf n).length - 1) ≤ n ∧ n < 10 ^ (digitsOf n).length := by
  have hlength : 0 < (digitsOf n).length := Nat.length_toDigits_pos
  refine ⟨?_, (Nat.length_toDigits_le_iff (by norm_num) hlength).mp le_rfl⟩
  rcases Nat.eq_zero_or_pos ((digitsOf n).length - 1) with hone | hmore
  · rw [hone]
    exact hn
  · have hless : ¬ (digitsOf n).length ≤ (digitsOf n).length - 1 := by omega
    exact not_lt.mp ((Nat.length_toDigits_le_iff (by norm_num) hmore).not.mp hless)

/-! ### Rounding a decimal -/

namespace Scientific

open BinaryFormat Shortest

variable {f : BinaryFormat} {m : ℕ} {q : ℤ} {s : Scientific}

/-- The number without its sign. -/
def magnitude (s : Scientific) : ℚ := s.digits * 10 ^ s.exponent

/-- The position of the first digit tells how large a number is. -/
lemma magnitude_bounds (h : 0 < s.digits) :
    (10 : ℚ) ^ (s.exponent + (digitsOf s.digits).length - 1) ≤ s.magnitude ∧
      s.magnitude < 10 ^ (s.exponent + (digitsOf s.digits).length) := by
  obtain ⟨hlow, hhigh⟩ := digitsOf_bounds h
  have hlength : 0 < (digitsOf s.digits).length := Nat.length_toDigits_pos
  have hten : (10 : ℚ) ≠ 0 := by norm_num
  have hpos : (0 : ℚ) < 10 ^ s.exponent := by positivity
  constructor
  · have hlow : (10 : ℚ) ^ ((digitsOf s.digits).length - 1) ≤ s.digits := by exact_mod_cast hlow
    calc (10 : ℚ) ^ (s.exponent + (digitsOf s.digits).length - 1)
        = 10 ^ ((digitsOf s.digits).length - 1) * 10 ^ s.exponent := by
          rw [← zpow_natCast, ← zpow_add₀ hten]
          congr 1
          omega
      _ ≤ s.digits * 10 ^ s.exponent := by gcongr
  · have hhigh : (s.digits : ℚ) < 10 ^ (digitsOf s.digits).length := by exact_mod_cast hhigh
    calc (s.digits : ℚ) * 10 ^ s.exponent
        < 10 ^ (digitsOf s.digits).length * 10 ^ s.exponent := by gcongr
      _ = 10 ^ (s.exponent + (digitsOf s.digits).length) := by
          rw [← zpow_natCast, ← zpow_add₀ hten, add_comm]

lemma toBits_zero (h : s.digits = 0) : s.toBits f = f.withSign s.negative 0 := by
  simp [toBits, h]

/-- Whatever lies in the interval around a number is within reach. -/
lemma within_reach (hf : f = .single ∨ f = .double) (h : f.Holds m q) (hm : 0 < m)
    (hin : (interval f m q).Contains (s.magnitude / 2 ^ (q - 2))) :
    0 < s.digits ∧ -(reach : ℤ) ≤ s.exponent + (digitsOf s.digits).length ∧
      s.exponent + (digitsOf s.digits).length ≤ reach := by
  have hunit : (0 : ℚ) < 2 ^ (q - 2) := zpow_pos two_pos _
  have hone : (1 : ℚ) ≤ m := by exact_mod_cast hm
  have hlower : (4 * m - 2) * 2 ^ (q - 2) ≤ s.magnitude :=
    (le_div_iff₀ hunit).mp ((interval_lower hm).trans hin.lower)
  have hupper : s.magnitude ≤ (4 * m + 2) * 2 ^ (q - 2) :=
    (div_le_iff₀ hunit).mp (hin.upper.trans_eq interval_upper)
  obtain ⟨-, -, hleast, hgreatest⟩ := exponent_bounds hf h
  have hdigits : 0 < s.digits := by
    by_contra hzero
    rw [magnitude, Nat.eq_zero_of_not_pos hzero, Nat.cast_zero, zero_mul] at hlower
    nlinarith
  obtain ⟨hlow, hhigh⟩ := magnitude_bounds hdigits
  have hreach : reach = 400 := rfl
  refine ⟨hdigits, ?_, ?_⟩
  · by_contra hsmall
    have hpower : (10 : ℚ) ^ (s.exponent + (digitsOf s.digits).length) ≤ 2 ^ (q - 2) :=
      ten_zpow_le_two_zpow (by omega) (by omega)
    nlinarith
  · by_contra hlarge
    have hpower : (2 : ℚ) ^ (f.fractionBits + q + 1) ≤
        10 ^ (s.exponent + (digitsOf s.digits).length - 1) :=
      two_zpow_le_ten_zpow (by omega) (by omega)
    have hmantissa : (m : ℚ) + 1 ≤ 2 * 2 ^ f.fractionBits := by
      exact_mod_cast h.lt.trans_eq (pow_succ' 2 _)
    rw [two_zpow_eq, zpow_one] at hpower
    nlinarith

/-- A decimal in the interval around a number is rounded to it. -/
theorem toBits_eq (hf : f = .single ∨ f = .double) (h : f.Holds m q) (hm : 0 < m)
    (hin : (interval f m q).Contains (s.magnitude / 2 ^ (q - 2))) :
    s.toBits f = f.withSign s.negative (f.pattern m q) := by
  obtain ⟨hdigits, hlow, hhigh⟩ := within_reach hf h hm hin
  have hten : 0 < 10 := by norm_num
  have hquotient : ((s.digits * powerUp 10 s.exponent : ℕ) : ℚ) / powerDown 10 s.exponent =
      s.magnitude := cast_mul_power hten _ _
  have hrounded : f.roundQuotient (s.digits * powerUp 10 s.exponent) (powerDown 10 s.exponent) =
      f.pattern m q :=
    h.roundQuotient_eq hm (powerDown_pos hten _) (hquotient ▸ hin)
  unfold toBits
  simp only [hrounded]
  rw [if_neg (by omega), if_neg (by omega)]

end Scientific

/-! ### Digits with a point -/

/-- Digits on both sides of a point, without a needless zero in front. -/
structure PlainDigits (whole fraction : List Char) : Prop where
  whole_ne : whole ≠ []
  fraction_ne : fraction ≠ []
  digits : ∀ c ∈ whole ++ fraction, c.isDigit = true
  lean : whole = ['0'] ∨ whole.head? ≠ some '0'

/-- The decimal that digits with a point stand for. -/
def plainDecimal (whole fraction : List Char) (negative : Bool) : Scientific :=
  DecimalParts.toScientific { whole := whole, fraction := fraction } negative

lemma magnitude_plainDecimal (whole fraction : List Char) (negative : Bool) :
    (plainDecimal whole fraction negative).magnitude =
      digitsValue (whole ++ fraction) * 10 ^ (-(fraction.length : ℤ)) := by
  have hexponent : (plainDecimal whole fraction negative).exponent = -(fraction.length : ℤ) := by
    simp [plainDecimal, DecimalParts.toScientific, digitsValue]
  rw [Scientific.magnitude, hexponent]
  rfl

/-- Zeros in front of digits make no difference. -/
lemma digitsValue_padded (zeros : ℕ) (cs : List Char) :
    digitsValue (List.replicate zeros '0' ++ cs) = digitsValue cs := by
  rw [digitsValue_eq, Nat.ofDigitChars_append, Nat.ofDigitChars_replicate_zero, mul_zero]
  rfl

/-- Zeros after digits multiply by powers of ten. -/
lemma digitsValue_extended (zeros : ℕ) (cs : List Char) :
    digitsValue (cs ++ List.replicate zeros '0') = 10 ^ zeros * digitsValue cs := by
  rw [digitsValue_eq, Nat.ofDigitChars_append, Nat.ofDigitChars_replicate_zero]
  rfl

/-- A whole number gets a zero after its point. -/
lemma positional_whole {style : NumberStyle} (hstyle : style.wholeSuffix = ".0") {d : ℕ} {k : ℤ}
    (hk : 0 ≤ k) (hzero : d = 0 → k = 0) :
    ∃ whole fraction, PlainDigits whole fraction ∧
      (positional style d k).toList = whole ++ '.' :: fraction ∧
      (digitsValue (whole ++ fraction) * 10 ^ (-(fraction.length : ℤ)) : ℚ) = d * 10 ^ k := by
  refine ⟨digitsOf d ++ List.replicate k.toNat '0', ['0'], ⟨?_, ?_, ?_, ?_⟩, ?_, ?_⟩
  · simp [digitsOf_ne_nil]
  · simp
  · intro c hc
    simp only [List.mem_append, List.mem_replicate, List.mem_singleton] at hc
    rcases hc with (hc | ⟨-, rfl⟩) | rfl
    · exact isDigit_of_mem_digitsOf hc
    · rfl
    · rfl
  · rcases Nat.eq_zero_or_pos d with rfl | hd
    · left
      rw [hzero rfl]
      rfl
    · right
      rw [List.head?_append_of_ne_nil _ (digitsOf_ne_nil d)]
      exact head?_digitsOf hd
  · simp [positional, hk, hstyle]
  · have hten : digitsValue (digitsOf d ++ List.replicate k.toNat '0' ++ ['0']) =
        10 ^ (k.toNat + 1) * d := by
      rw [List.append_assoc, ← List.replicate_succ', digitsValue_extended, digitsValue_digitsOf]
    have hpower : (10 : ℚ) ^ k = 10 ^ k.toNat := by
      rw [← zpow_natCast, Int.toNat_of_nonneg hk]
    rw [hten, hpower]
    push_cast [pow_succ]
    norm_num
    ring

/-- The digits of a number behind zeros, so that one digit stands before the places. -/
def paddedDigits (d places : ℕ) : List Char :=
  List.replicate (places + 1 - (digitsOf d).length) '0' ++ digitsOf d

lemma length_paddedDigits (d places : ℕ) :
    (paddedDigits d places).length = max (places + 1) (digitsOf d).length := by
  simp only [paddedDigits, List.length_append, List.length_replicate]
  omega

lemma isDigit_of_mem_paddedDigits {d places : ℕ} {c : Char} (h : c ∈ paddedDigits d places) :
    c.isDigit = true := by
  rcases List.mem_append.mp h with hzero | hdigit
  · rw [(List.mem_replicate.mp hzero).2]
    rfl
  · exact isDigit_of_mem_digitsOf hdigit

/-- Zeros are only put in front as far as the point needs one. -/
lemma paddedDigits_lean {d places : ℕ} (hd : 0 < d) :
    (paddedDigits d places).take ((paddedDigits d places).length - places) = ['0'] ∨
      ((paddedDigits d places).take ((paddedDigits d places).length - places)).head? ≠
        some '0' := by
  rw [length_paddedDigits]
  rcases Nat.lt_or_ge places (digitsOf d).length with hlong | hshort
  · right
    have hnone : paddedDigits d places = digitsOf d := by
      simp [paddedDigits, Nat.sub_eq_zero_of_le hlong]
    have hkept : ¬ max (places + 1) (digitsOf d).length - places = 0 := by omega
    rw [List.head?_take, hnone, if_neg hkept]
    exact head?_digitsOf hd
  · left
    have hone : max (places + 1) (digitsOf d).length - places = 1 := by omega
    have hzeros : places + 1 - (digitsOf d).length = places - (digitsOf d).length + 1 := by omega
    rw [hone, paddedDigits, hzeros, List.replicate_succ]
    rfl

lemma toList_pointed (d places : ℕ) :
    (pointed d places).toList =
      (paddedDigits d places).take ((paddedDigits d places).length - places) ++
        '.' :: (paddedDigits d places).drop ((paddedDigits d places).length - places) := by
  simp [pointed, paddedDigits]

/-- Digits are padded so that one of them stands before the point. -/
lemma positional_pointed {style : NumberStyle} {d : ℕ} {k : ℤ} (hk : k < 0) (hd : 0 < d) :
    ∃ whole fraction, PlainDigits whole fraction ∧
      (positional style d k).toList = whole ++ '.' :: fraction ∧
      (digitsValue (whole ++ fraction) * 10 ^ (-(fraction.length : ℤ)) : ℚ) = d * 10 ^ k := by
  let places := (-k).toNat
  let padded := paddedDigits d places
  have hlength : padded.length = max (places + 1) (digitsOf d).length :=
    length_paddedDigits d places
  have hplaces : (padded.drop (padded.length - places)).length = places := by
    rw [List.length_drop]
    omega
  have hpadded : padded.take (padded.length - places) ++ padded.drop (padded.length - places) =
      padded := List.take_append_drop _ _
  refine ⟨padded.take (padded.length - places), padded.drop (padded.length - places),
    ⟨?_, ?_, ?_, paddedDigits_lean hd⟩, ?_, ?_⟩
  · rw [← List.length_pos_iff, List.length_take]
    omega
  · rw [← List.length_pos_iff, hplaces]
    omega
  · intro c hc
    rw [hpadded] at hc
    exact isDigit_of_mem_paddedDigits hc
  · rw [positional, if_neg (by omega)]
    exact toList_pointed d places
  · have hvalue : digitsValue padded = d :=
      (digitsValue_padded _ _).trans (digitsValue_digitsOf d)
    rw [hpadded, hplaces, hvalue]
    congr 2
    omega

/-- A number without an exponent is digits with a point. -/
theorem positional_plainDigits {style : NumberStyle} (hstyle : style.wholeSuffix = ".0") {d : ℕ}
    {k : ℤ} (hzero : d = 0 → k = 0) :
    ∃ whole fraction, PlainDigits whole fraction ∧
      (positional style d k).toList = whole ++ '.' :: fraction ∧
      ∀ negative, (plainDecimal whole fraction negative).magnitude = d * 10 ^ k := by
  obtain ⟨whole, fraction, hdigits, htext, hvalue⟩ : ∃ whole fraction,
      PlainDigits whole fraction ∧ (positional style d k).toList = whole ++ '.' :: fraction ∧
      (digitsValue (whole ++ fraction) * 10 ^ (-(fraction.length : ℤ)) : ℚ) = d * 10 ^ k := by
    rcases le_or_gt 0 k with hk | hk
    · exact positional_whole hstyle hk hzero
    · exact positional_pointed hk (Nat.pos_of_ne_zero fun h => hk.ne (hzero h))
  exact ⟨whole, fraction, hdigits, htext, fun negative =>
    (magnitude_plainDecimal whole fraction negative).trans hvalue⟩

/-! ### Shortest text -/

/-- A text that is read as a number of a format: a word, or digits that are rounded to the pattern
of the number. -/
inductive SpelledBy (f : BinaryFormat) : BinaryNumber → ℕ → List Char → Prop
  | infinity (negative : Bool) :
    SpelledBy f (.infinity negative) (f.withSign negative f.infinityBits)
      ((signText negative).toList ++ "inf".toList)
  | finite (negative : Bool) {m : ℕ} {q : ℤ} {bits : ℕ} {whole fraction : List Char}
    (digits : PlainDigits whole fraction)
    (rounded : (plainDecimal whole fraction negative).toBits f = bits) :
    SpelledBy f (.finite negative m q) bits
      ((signText negative).toList ++ (whole ++ '.' :: fraction))

open BinaryFormat Shortest

variable {f : BinaryFormat} {m : ℕ} {q : ℤ}

/-- A number begins with a sign, a digit or the letter of the word for infinity. -/
lemma SpelledBy.exists_firstChar {n : BinaryNumber} {bits : ℕ} {cs : List Char}
    (h : SpelledBy f n bits cs) : ∃ c ∈ "-i0123456789".toList, ∃ cs', cs = c :: cs' := by
  cases h with
  | infinity negative =>
    cases negative with
    | false => exact ⟨'i', by decide, _, rfl⟩
    | true => exact ⟨'-', by decide, _, rfl⟩
  | @finite negative _ _ _ whole fraction digits rounded =>
    cases negative with
    | false =>
      obtain ⟨d, ds, hd⟩ := List.exists_cons_of_ne_nil digits.whole_ne
      have hfirst := digits.digits d (List.mem_append_left _ (hd ▸ List.mem_cons_self))
      have hmem := List.mem_append_right "-i".toList (Reader.mem_of_isDigit hfirst)
      exact ⟨d, hmem, _, by rw [hd]; rfl⟩
    | true => exact ⟨'-', by decide, _, rfl⟩

/-- The shortest decimal of a number is rounded to that number. -/
lemma toBits_decimal (hf : f = .single ∨ f = .double) (h : f.Holds m q) {s : Scientific}
    (hs : s.magnitude = (decimal f m q).1 * 10 ^ (decimal f m q).2) :
    s.toBits f = f.withSign s.negative (f.pattern m q) := by
  rcases Nat.eq_zero_or_pos m with rfl | hm
  · have hdigits : s.digits = 0 := by
      have hzero : s.magnitude = 0 := by simpa [decimal] using hs
      have hpower : (10 : ℚ) ^ s.exponent ≠ 0 := zpow_ne_zero _ (by norm_num)
      exact_mod_cast (mul_eq_zero.mp hzero).resolve_right hpower
    rw [h.pattern_zero, Scientific.toBits_zero hdigits]
  · obtain ⟨d, k, hdecimal, hin⟩ := decimal_contains hf h hm
    rw [hdecimal] at hs
    refine Scientific.toBits_eq hf h hm ?_
    rw [hs]
    exact hin

/-- The shortest text of a number is read as that number. -/
theorem shortestText_spelledBy {style : NumberStyle} (hstyle : style.wholeSuffix = ".0")
    (hf : f = .single ∨ f = .double) {n : BinaryNumber} {bits : ℕ} (h : f.Encodes n bits) :
    SpelledBy f n bits (shortestText style f n).toList := by
  cases h with
  | infinity negative =>
    have htext : (shortestText style f (.infinity negative)).toList =
        (signText negative).toList ++ "inf".toList := by simp [shortestText]
    exact htext ▸ .infinity negative
  | @finite negative m q holds =>
    let d := (decimal f m q).1
    let k := if d = 0 then 0 else (decimal f m q).2
    obtain ⟨whole, fraction, hdigits, htext, hvalue⟩ :=
      positional_plainDigits (d := d) (k := k) hstyle fun hzero => if_pos hzero
    have hmagnitude : (plainDecimal whole fraction negative).magnitude =
        d * 10 ^ (decimal f m q).2 := by
      rw [hvalue]
      by_cases hzero : d = 0
      · simp [hzero]
      · have hk : k = (decimal f m q).2 := if_neg hzero
        rw [hk]
    have hspelled : (shortestText style f (.finite negative m q)).toList =
        (signText negative).toList ++ (whole ++ '.' :: fraction) := by
      rw [← htext, ← String.toList_append]
      rfl
    exact hspelled ▸ .finite negative hdigits (toBits_decimal hf holds hmagnitude)

end Sightline
