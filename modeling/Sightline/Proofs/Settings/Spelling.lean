import Mathlib
import Sightline.Proofs.Decimal.Conversion
import Sightline.Proofs.Ron.Records
import Sightline.Proofs.Toml.Values
import Sightline.Settings.Spelling

/-!
# Spellings read back

The value of a setting is read as it was written, in either format.
-/

namespace Sightline

namespace Spelling

open Reader BinaryFormat

variable {β : Type}

/-- A value is read as it was written, in either format. -/
structure Keeps (spelling : Spelling β) (b : β) : Prop where
  toml : ∀ v, spelling.toToml? b = some v → Toml.IsWritable v ∧ spelling.ofToml? v = some b
  starts : ∀ level rest,
    Stops Ron.isGap ((Ron.valueText level (spelling.toRon b)).toList ++ rest)
  ron : ∀ level rest, spelling.ofRon.Reads
    ((Ron.valueText level (spelling.toRon b)).toList ++ ',' :: rest) b (',' :: rest)

/-! ### Counts, words and truth values -/

lemma count_toToml?_eq_none {n : UInt64} :
    count.toToml? n = none ↔ TomlValue.maxInteger < n.toNat := by
  simp [count]

lemma valueText_count (level : ℕ) (n : UInt64) :
    (Ron.valueText level (count.toRon n)).toList = digitsOf n.toNat := String.toList_ofList

lemma count_keeps (n : UInt64) : count.Keeps n where
  toml v hv := by
    obtain ⟨hfits, rfl⟩ : (n.toNat : ℤ) ≤ TomlValue.maxInteger ∧ .integer n.toNat = v := by
      simpa [count] using hv
    refine ⟨.plain (.integer hfits), ?_⟩
    simp [count]
  starts level rest := by
    rw [valueText_count]
    refine stops_of_isDigit (digitsOf_ne_nil n.toNat) (fun _ => isDigit_of_mem_digitsOf) ?_
    intro c hc
    have hgap : ∀ d ∈ "0123456789".toList, Ron.isGap d = false := forall_mem_false rfl
    exact hgap c (mem_of_isDigit hc)
  ron level rest := by
    have hn : n.toNat < UInt64.size := n.toNat_lt
    rw [valueText_count]
    simp only [count]
    refine (Ron.reads_natural n.toNat Ron.ends_comma).bind ?_
    rw [if_pos hn, UInt64.ofNat_toNat]
    exact reads_pure n _

lemma flag_keeps (b : Bool) : flag.Keeps b where
  toml v hv := by
    obtain rfl : .boolean b = v := by simpa [flag] using hv
    exact ⟨.plain (.boolean b), rfl⟩
  starts level rest := by cases b <;> simp [flag, Ron.valueText, Ron.isGap, Ron.isBlank]
  ron level rest := Ron.reads_boolean b Ron.ends_comma

lemma isBasicChar_of_isNameChar {c : Char} (hc : Ron.isNameChar c = true) :
    Toml.isBasicChar c = true := by
  have hbounds : 0x20 ≤ c.toNat ∧ c.toNat ≤ 0x7e := by
    have hranges : ((65 ≤ c.toNat ∧ c.toNat ≤ 90 ∨ 97 ≤ c.toNat ∧ c.toNat ≤ 122) ∨
        48 ≤ c.toNat ∧ c.toNat ≤ 57) ∨ c.toNat = 95 := by
      simpa [Ron.isNameChar, Char.isAlphanum, Char.isAlpha, Char.isUpper, Char.isLower,
        Char.isDigit, UInt32.le_iff_toNat_le, Char.ext_iff, ← UInt32.toNat_inj] using hc
    omega
  have hquote : c ≠ '"' := by
    rintro rfl
    cases hc
  have hescape : c ≠ '\\' := by
    rintro rfl
    cases hc
  obtain ⟨hlow, hhigh⟩ := hbounds
  simp [Toml.isBasicChar, Toml.isCommentChar, hlow, hhigh, hquote, hescape]

/-- The words of values are looked up among all of them. -/
lemma lookup_map_word (all : List β) (word : β → String) (w : String) :
    (all.map fun b => (word b, b)).lookup w = all.find? (word · == w) := by
  induction all with
  | nil => rfl
  | cons b all ih =>
    rw [List.map_cons, List.lookup_cons, List.find?_cons, ih, Bool.beq_comm]

/-- A word that is told from all others is read back. -/
lemma choice_keeps {all : List β} {word : β → String} {b : β} (hname : Ron.IsName (word b))
    (hfind : all.find? (word · == word b) = some b) : (choice all word).Keeps b where
  toml v hv := by
    obtain rfl : .string (word b) = v := by simpa [choice] using hv
    have hbasic : ∀ c ∈ (word b).toList, Toml.isBasicChar c = true := fun c hc =>
      isBasicChar_of_isNameChar (List.all_eq_true.mp hname.all c hc)
    refine ⟨.plain (.string hbasic), ?_⟩
    simpa [choice, wordOfToml?] using hfind
  starts level rest := hname.stops fun _ => Ron.not_isGap_of_isNameStart
  ron level rest := by
    have hlookup := (lookup_map_word all word (word b)).trans hfind
    exact (Ron.reads_name hname (Or.inr rfl) rest).bind (reads_lift hlookup _)

/-! ### Numbers -/

/-- A single is spelled so that its bits are read back. -/
lemma singleToRon_spelledBy {x : Float32} (hx : Scalar.isDefined x = true) :
    SpelledBy single (BinaryNumber.ofSingle x) x.toBits.toNat (singleToRon x).toList :=
  shortestText_spelledBy rfl (Or.inl rfl) (Single.encodes_ofSingle hx)

lemma singleToToml_plain {x : Float32} (hx : Scalar.isDefined x = true) :
    Toml.IsPlain (singleToToml x) ∧ singleOfToml? (singleToToml x) = some x := by
  obtain ⟨bits, hencodes, hback⟩ := Single.roundTo_double hx
  exact ⟨.float hencodes, congrArg some hback⟩

lemma number_keeps {x : Float32} (hx : Scalar.isDefined x = true) : number.Keeps x where
  toml v hv := by
    obtain rfl : singleToToml x = v := by simpa [number] using hv
    obtain ⟨hplain, hback⟩ := singleToToml_plain hx
    exact ⟨.plain hplain, hback⟩
  starts level rest := Ron.stops_of_spelledBy (singleToRon_spelledBy hx)
  ron level rest := Ron.reads_float (singleToRon_spelledBy hx) Ron.ends_comma

lemma valueText_triple (level : ℕ) (v : Vec3 Float32) (rest : List Char) :
    (Ron.valueText level (triple.toRon v)).toList ++ rest =
      '(' :: ((singleToRon v.x).toList ++ ',' :: ' ' :: ((singleToRon v.y).toList ++
        ',' :: ' ' :: ((singleToRon v.z).toList ++ ')' :: rest))) := by
  simp [triple, Ron.valueText]

lemma triple_keeps {v : Vec3 Float32} (hx : Scalar.isDefined v.x = true)
    (hy : Scalar.isDefined v.y = true) (hz : Scalar.isDefined v.z = true) : triple.Keeps v where
  toml t ht := by
    obtain rfl : .array [singleToToml v.x, singleToToml v.y, singleToToml v.z] = t := by
      simpa [triple] using ht
    obtain ⟨hplainX, hbackX⟩ := singleToToml_plain hx
    obtain ⟨hplainY, hbackY⟩ := singleToToml_plain hy
    obtain ⟨hplainZ, hbackZ⟩ := singleToToml_plain hz
    refine ⟨.array (by simp [hplainX, hplainY, hplainZ]), ?_⟩
    simp [triple, hbackX, hbackY, hbackZ]
  starts level rest := by
    rw [valueText_triple]
    exact stops_cons.mpr (by decide)
  ron level rest := by
    rw [valueText_triple]
    have htriple := Ron.reads_triple (singleToRon_spelledBy hx) (singleToRon_spelledBy hy)
      (singleToRon_spelledBy hz) (',' :: rest)
    exact htriple.bind (reads_pure v _)

end Spelling

end Sightline
