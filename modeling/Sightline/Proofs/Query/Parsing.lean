import Mathlib.Tactic
import Sightline.Query.Request

/-!
# Which requests can be read

An option list is read pair by pair. It can be read if every key is one of those known and every
value is an integer, and then every option is as the last pair with its key says. If it cannot be
read, the first pair that is not as it should be gives the error.
-/

namespace Sightline

namespace Request

/-! ### Pairs -/

/-- The pairs of keys and values of an option list. A key without a value is in none. -/
def pairs : List OptionValue → List (OptionValue × OptionValue)
  | key :: value :: rest => (key, value) :: pairs rest
  | _ => []

/-- A pair sets an option. -/
def Sets (key value : OptionValue) : Prop :=
  ∃ number setting, key = .int number ∧ value = .int setting ∧ 0 ≤ number ∧ number ≤ 4

/-- What is wrong with a pair whose key stands at `index`. -/
inductive Fault (index : ℕ) : OptionValue → OptionValue → RequestError → Prop where
  | key {key value : OptionValue} :
    (∀ number, key ≠ .int number) → Fault index key value (.keyNotInteger index)
  | value {number : Int32} {value : OptionValue} :
    (∀ setting, value ≠ .int setting) → Fault index (.int number) value (.valueNotInteger number)
  | unknown {number setting : Int32} :
    ¬ (0 ≤ number ∧ number ≤ 4) → Fault index (.int number) (.int setting) (.unknownKey number)

/-- The value in the last pair with a key. -/
def lastValue? (options : List OptionValue) (key : Int32) : Option Int32 :=
  (pairs options).reverse.findSome? fun
    | (.int number, .int value) => if number = key then some value else none
    | _ => none

variable {options rest : List OptionValue} {key value : OptionValue} {number setting : Int32}

@[simp] lemma pairs_cons_cons : pairs (key :: value :: rest) = (key, value) :: pairs rest := rfl

lemma lastValue?_cons_cons (known : Int32) :
    lastValue? (.int number :: .int setting :: rest) known =
      (lastValue? rest known).or (if number = known then some setting else none) := by
  simp [lastValue?, List.findSome?_append]

lemma sets_int_int : Sets (.int number) (.int setting) ↔ 0 ≤ number ∧ number ≤ 4 := by
  simp [Sets]

lemma exists_fault (index : ℕ) (h : ¬ Sets key value) : ∃ e, Fault index key value e := by
  by_cases hkey : ∃ number, key = .int number
  · obtain ⟨number, rfl⟩ := hkey
    by_cases hvalue : ∃ setting, value = .int setting
    · obtain ⟨setting, rfl⟩ := hvalue
      exact ⟨_, .unknown (sets_int_int.not.mp h)⟩
    · push Not at hvalue
      exact ⟨_, .value hvalue⟩
  · push Not at hkey
    exact ⟨_, .key hkey⟩

/-! ### Known keys -/

lemma ofNumber?_number (known : OptionKey) : OptionKey.ofNumber? known.number = some known := by
  cases known <;> decide

lemma number_bounds (known : OptionKey) : 0 ≤ known.number ∧ known.number ≤ 4 := by
  cases known <;> decide

lemma exists_number (h : 0 ≤ number ∧ number ≤ 4) :
    ∃ known : OptionKey, known.number = number := by
  have hlow : 0 ≤ number.toInt := Int32.le_iff_toInt_le.mp h.1
  have hhigh : number.toInt ≤ 4 := Int32.le_iff_toInt_le.mp h.2
  rw [← Int32.ofInt_toInt number]
  interval_cases number.toInt
  exacts [⟨.rejectTypes, rfl⟩, ⟨.detectPhantom, rfl⟩, ⟨.dataFlags, rfl⟩, ⟨.maxHits, rfl⟩,
    ⟨.detectAttachments, rfl⟩]

lemma ofNumber?_eq_none (h : ¬ (0 ≤ number ∧ number ≤ 4)) : OptionKey.ofNumber? number = none := by
  apply List.find?_eq_none.mpr
  intro known _ hknown
  rw [beq_iff_eq] at hknown
  exact h (hknown ▸ number_bounds known)

lemma Sets.exists_known (h : Sets key value) :
    ∃ (known : OptionKey) (setting : Int32), key = .int known.number ∧ value = .int setting := by
  obtain ⟨number, setting, hkey, hvalue, hbounds⟩ := h
  obtain ⟨known, rfl⟩ := exists_number hbounds
  exact ⟨known, setting, hkey, hvalue⟩

/-! ### Reading pairs -/

lemma withOptions_known (r : Request) (index : ℕ) (known : OptionKey) (setting : Int32)
    (rest : List OptionValue) :
    r.withOptions index (.int known.number :: .int setting :: rest) =
      (r.withOption setting known).withOptions (index + 2) rest := by
  rw [withOptions, ofNumber?_number]

lemma withOptions_fault (r : Request) {index : ℕ} {e : RequestError}
    (h : Fault index key value e) (rest : List OptionValue) :
    r.withOptions index (key :: value :: rest) = .error e := by
  cases h with
  | key hkey =>
    cases key with
    | int number => exact absurd rfl (hkey number)
    | _ => simp [withOptions]
  | value hvalue =>
    cases value with
    | int setting => exact absurd rfl (hvalue setting)
    | _ => simp [withOptions]
  | unknown hnumber => rw [withOptions, ofNumber?_eq_none hnumber]

/-- The request with every option set to the last value that is given for it. -/
def settled (r : Request) (options : List OptionValue) : Request where
  segment := r.segment
  reject := (lastValue? options 0).elim r.reject fun value => Rejects.ofBits value.toUInt32.toNat
  detectPhantom := (lastValue? options 1).elim r.detectPhantom (· != 0)
  flags := (lastValue? options 2).elim r.flags fun value => DataFlags.ofBits value.toUInt32.toNat
  maxHits := (lastValue? options 3).elim r.maxHits fun value =>
    if value < 0 then 1 else value.toInt.toNat
  detectAttachments := (lastValue? options 4).elim r.detectAttachments (· != 0)

/-- Setting an option first makes no difference where it is set again. -/
lemma settled_withOption (r : Request) (known : OptionKey) (setting : Int32)
    (rest : List OptionValue) :
    (r.withOption setting known).settled rest =
      r.settled (.int known.number :: .int setting :: rest) := by
  -- whether the value set now is the last one depends on what comes later
  have hlast {β : Type} (last : Option Int32) (unset : β) (set : Int32 → β) :
      (last.or (some setting)).elim unset set = last.elim (set setting) set := by
    cases last <;> rfl
  cases known <;>
    simp [settled, lastValue?_cons_cons, withOption, OptionKey.number, hlast, -Option.or_some]

/-- Where every pair sets an option, all pairs are read. -/
lemma withOptions_eq_ok (r : Request) (index : ℕ) (options : List OptionValue)
    (h : ∀ pair ∈ pairs options, Sets pair.1 pair.2) :
    r.withOptions index options = .ok (r.settled options) := by
  fun_induction pairs options generalizing r index with
  | case1 key value rest ih =>
    rw [List.forall_mem_cons] at h
    obtain ⟨hsets, hrest⟩ := h
    obtain ⟨known, setting, rfl, rfl⟩ := hsets.exists_known
    rw [withOptions_known, ← settled_withOption]
    exact ih (r.withOption setting known) (index + 2) hrest
  | case2 options hshort =>
    have hpairs : pairs options = [] := by
      rw [pairs]
      exact hshort
    have hread : r.withOptions index options = .ok r := by
      rw [withOptions]
      exact hshort
    simp [hread, settled, lastValue?, hpairs]

/-- The first pair that sets no option ends the reading. -/
lemma withOptions_eq_error (r : Request) (index : ℕ) (options : List OptionValue)
    {before behind : List (OptionValue × OptionValue)} {e : RequestError}
    (hpairs : pairs options = before ++ (key, value) :: behind)
    (hbefore : ∀ pair ∈ before, Sets pair.1 pair.2)
    (hfault : Fault (index + 2 * before.length) key value e) :
    r.withOptions index options = .error e := by
  -- the index of a key goes up by two with every pair that is read
  fun_induction pairs options generalizing r index before with
  | case1 first second rest ih =>
    cases before with
    | nil =>
      obtain ⟨⟨rfl, rfl⟩, -⟩ : (first = key ∧ second = value) ∧ pairs rest = behind := by
        simpa using hpairs
      exact withOptions_fault r hfault rest
    | cons pair before =>
      obtain ⟨rfl, hrest⟩ :
          (first, second) = pair ∧ pairs rest = before ++ (key, value) :: behind := by
        simpa using hpairs
      rw [List.forall_mem_cons] at hbefore
      obtain ⟨hsets, hbefore⟩ := hbefore
      obtain ⟨known, setting, rfl, rfl⟩ := hsets.exists_known
      rw [withOptions_known]
      apply ih (r.withOption setting known) (index + 2) hrest hbefore
      have hindex : index + 2 * (before.length + 1) = index + 2 + 2 * before.length := by ring
      rwa [List.length_cons, hindex] at hfault
  | case2 options hshort => simp at hpairs

/-! ### Requests that can be read -/

/-- The coordinates of two endpoints. -/
def coordinates (start stop : Vec3 Float32) : List Float32 :=
  [start.x, start.y, start.z, stop.x, stop.y, stop.z]

/-- A request can be read. -/
structure Readable (start stop : Vec3 Float32) (options : List OptionValue) : Prop where
  finite : ∀ x ∈ coordinates start stop, x.isFinite = true
  paired : options.length % 2 = 0
  keys : ∀ i key, options[2 * i]? = some key →
    ∃ number, key = .int number ∧ 0 ≤ number ∧ number ≤ 4
  values : ∀ i value, options[2 * i + 1]? = some value → ∃ setting, value = .int setting

/-- A request is the one asked for. Of several pairs with one key the last one counts. -/
structure Asks (start stop : Vec3 Float32) (options : List OptionValue) (ceiling : ℕ)
    (r : Request) : Prop where
  segment : r.segment = ⟨start, stop⟩
  /-- Of the value of key `0` the four lowest bits count. -/
  reject : r.reject.bits = (lastValue? options 0).elim 0 (·.toUInt32.toNat &&& 0b1111)
  detectPhantom : r.detectPhantom = (lastValue? options 1).elim false (· != 0)
  /-- Of the value of key `2` the three lowest bits count. -/
  flags : r.flags.bits = (lastValue? options 2).elim 0 (·.toUInt32.toNat &&& 0b111)
  /-- The value of key `3` is moved into the range allowed. -/
  maxHits : (r.maxHits : ℤ) =
    (lastValue? options 3).elim 1 fun value => min (max value.toInt 1) (max ceiling 1)
  detectAttachments : r.detectAttachments = (lastValue? options 4).elim false (· != 0)

/-- A request cannot be read because of an error. -/
inductive Refuses (start stop : Vec3 Float32) (options : List OptionValue) :
    RequestError → Prop where
  | nonFinite {x : Float32} :
    x ∈ coordinates start stop → x.isFinite = false → Refuses start stop options .nonFiniteRay
  | odd : (∀ x ∈ coordinates start stop, x.isFinite = true) → options.length % 2 = 1 →
    Refuses start stop options (.oddArity options.length)
  | fault {before behind : List (OptionValue × OptionValue)} {key value : OptionValue}
    {e : RequestError} : (∀ x ∈ coordinates start stop, x.isFinite = true) →
    options.length % 2 = 0 → pairs options = before ++ (key, value) :: behind →
    (∀ pair ∈ before, Sets pair.1 pair.2) → Fault (2 * before.length) key value e →
    Refuses start stop options e

variable {start stop : Vec3 Float32} {ceiling : ℕ}

lemma isFinite_iff : (⟨start, stop⟩ : Segment Float32).isFinite = true ↔
    ∀ x ∈ coordinates start stop, x.isFinite = true := by
  simp [Segment.isFinite, Vec3.isFinite, Vec3.all, coordinates, Scalar.isFinite, and_assoc]

/-- Looking at elements by their index is looking at pairs. -/
lemma forall_sets_iff (h : options.length % 2 = 0) :
    (∀ pair ∈ pairs options, Sets pair.1 pair.2) ↔
      (∀ i key, options[2 * i]? = some key →
        ∃ number, key = .int number ∧ 0 ≤ number ∧ number ≤ 4) ∧
      ∀ i value, options[2 * i + 1]? = some value → ∃ setting, value = .int setting := by
  fun_induction pairs options with
  | case1 key value rest ih =>
    have hrest : rest.length % 2 = 0 := by
      simp only [List.length_cons] at h
      omega
    rw [List.forall_mem_cons, ih hrest]
    constructor
    · rintro ⟨⟨number, setting, hkey, hvalue, hbounds⟩, hkeys, hvalues⟩
      constructor
      · rintro (_ | i) other hother
        · obtain rfl : key = other := by simpa using hother
          exact ⟨number, hkey, hbounds⟩
        · exact hkeys i other (by simpa [Nat.mul_add] using hother)
      · rintro (_ | i) other hother
        · obtain rfl : value = other := by simpa using hother
          exact ⟨setting, hvalue⟩
        · exact hvalues i other (by simpa [Nat.mul_add] using hother)
    · rintro ⟨hkeys, hvalues⟩
      obtain ⟨number, hkey, hbounds⟩ := hkeys 0 key rfl
      obtain ⟨setting, hvalue⟩ := hvalues 0 value rfl
      refine ⟨⟨number, setting, hkey, hvalue, hbounds⟩, ?_, ?_⟩
      · intro i other hother
        exact hkeys (i + 1) other (by simpa [Nat.mul_add] using hother)
      · intro i other hother
        exact hvalues (i + 1) other (by simpa [Nat.mul_add] using hother)
  | case2 options hshort =>
    cases options with
    | nil => simp
    | cons key rest =>
      cases rest with
      | nil => simp at h
      | cons value rest => exact absurd rfl (hshort key value rest)

lemma readable_iff : Readable start stop options ↔
    (∀ x ∈ coordinates start stop, x.isFinite = true) ∧ options.length % 2 = 0 ∧
      ∀ pair ∈ pairs options, Sets pair.1 pair.2 := by
  constructor
  · intro h
    exact ⟨h.finite, h.paired, (forall_sets_iff h.paired).mpr ⟨h.keys, h.values⟩⟩
  · rintro ⟨hfinite, hpaired, hsets⟩
    obtain ⟨hkeys, hvalues⟩ := (forall_sets_iff hpaired).mp hsets
    exact ⟨hfinite, hpaired, hkeys, hvalues⟩

lemma bits_reject (n : ℕ) : (Rejects.ofBits n).bits = n &&& 0b1111 := by
  have hmask : n &&& 0b1111 = n % 16 := Nat.and_two_pow_sub_one_eq_mod n 4
  simp only [Rejects.bits, Rejects.ofBits, Nat.toNat_testBit, hmask]
  omega

lemma bits_flags (n : ℕ) : (DataFlags.ofBits n).bits = n &&& 0b111 := by
  have hmask : n &&& 0b111 = n % 8 := Nat.and_two_pow_sub_one_eq_mod n 3
  simp only [DataFlags.bits, DataFlags.ofBits, Nat.toNat_testBit, hmask]
  omega

lemma bits_reject_injective : Function.Injective Rejects.bits := by
  rintro ⟨a, b, c, d⟩ ⟨a', b', c', d'⟩
  revert a b c d a' b' c' d'
  decide

lemma bits_flags_injective : Function.Injective DataFlags.bits := by
  rintro ⟨a, b, c⟩ ⟨a', b', c'⟩
  revert a b c a' b' c'
  decide

/-! ### Reading requests -/

/-- The request that is asked for with two endpoints and an option list. -/
def described (start stop : Vec3 Float32) (options : List OptionValue) (ceiling : ℕ) : Request :=
  ((Request.mk ⟨start, stop⟩ {} false false {} 1).settled options).clamped ceiling

lemma asks_described (start stop : Vec3 Float32) (options : List OptionValue) (ceiling : ℕ) :
    Asks start stop options ceiling (described start stop options ceiling) := by
  constructor
  case segment => rfl
  case reject =>
    cases h : lastValue? options 0 with
    | none => simp [described, settled, clamped, h, Rejects.bits]
    | some value => simp [described, settled, clamped, h, bits_reject]
  case detectPhantom => rfl
  case flags =>
    cases h : lastValue? options 2 with
    | none => simp [described, settled, clamped, h, DataFlags.bits]
    | some value => simp [described, settled, clamped, h, bits_flags]
  case maxHits =>
    cases h : lastValue? options 3 with
    | none => simp [described, settled, clamped, h]
    | some value =>
      have hcount : max (if value < 0 then 1 else value.toInt.toNat) 1 = max value.toInt 1 := by
        split
        · next hneg =>
          have hlt : value.toInt < 0 := Int32.lt_iff_toInt_lt.mp hneg
          omega
        · omega
      simp only [described, settled, clamped, h, Option.elim_some]
      omega
  case detectAttachments => rfl

lemma Asks.eq {r r' : Request} (h : Asks start stop options ceiling r)
    (h' : Asks start stop options ceiling r') : r = r' := by
  obtain ⟨segment, reject, phantom, attachments, flags, maxHits⟩ := r
  obtain ⟨segment', reject', phantom', attachments', flags', maxHits'⟩ := r'
  rw [Request.mk.injEq]
  refine ⟨h.segment.trans h'.segment.symm, ?_, ?_, ?_, ?_, ?_⟩
  · exact bits_reject_injective (h.reject.trans h'.reject.symm)
  · exact h.detectPhantom.trans h'.detectPhantom.symm
  · exact h.detectAttachments.trans h'.detectAttachments.symm
  · exact bits_flags_injective (h.flags.trans h'.flags.symm)
  · exact_mod_cast h.maxHits.trans h'.maxHits.symm

lemma parse_of_readable (h : Readable start stop options) (ceiling : ℕ) :
    parse start stop options ceiling = .ok (described start stop options ceiling) := by
  obtain ⟨hfinite, hpaired, hsets⟩ := readable_iff.mp h
  simp only [parse, isFinite_iff.mpr hfinite, hpaired, withOptions_eq_ok _ 0 options hsets]
  rfl

lemma parse_of_refuses {e : RequestError} (h : Refuses start stop options e) (ceiling : ℕ) :
    parse start stop options ceiling = .error e := by
  cases h with
  | nonFinite hx hfinite =>
    have hray : (⟨start, stop⟩ : Segment Float32).isFinite = false := by
      rw [Bool.eq_false_iff, Ne, isFinite_iff]
      intro hall
      rw [hall _ hx] at hfinite
      cases hfinite
    simp [parse, hray]
  | odd hfinite hlength => simp [parse, isFinite_iff.mpr hfinite, hlength]
  | fault hfinite hpaired hpairs hbefore hfault =>
    have hread (r : Request) : r.withOptions 0 options = .error e :=
      withOptions_eq_error r 0 options hpairs hbefore (by rwa [Nat.zero_add])
    simp [parse, isFinite_iff.mpr hfinite, hpaired, hread, Except.map]

lemma readable_or_refuses (start stop : Vec3 Float32) (options : List OptionValue) :
    Readable start stop options ∨ ∃ e, Refuses start stop options e := by
  classical
  by_cases hfinite : ∀ x ∈ coordinates start stop, x.isFinite = true
  swap
  · push Not at hfinite
    obtain ⟨x, hx, hxfinite⟩ := hfinite
    exact Or.inr ⟨_, .nonFinite hx (by simpa using hxfinite)⟩
  rcases Nat.mod_two_eq_zero_or_one options.length with hpaired | hodd
  swap
  · exact Or.inr ⟨_, .odd hfinite hodd⟩
  cases hfirst : (pairs options).find? fun pair => ¬ Sets pair.1 pair.2 with
  | none =>
    left
    apply readable_iff.mpr
    refine ⟨hfinite, hpaired, ?_⟩
    simpa using hfirst
  | some pair =>
    right
    obtain ⟨hpair, before, behind, hpairs, hbefore⟩ := List.find?_eq_some_iff_append.mp hfirst
    obtain ⟨e, hfault⟩ := exists_fault (2 * before.length) (by simpa using hpair)
    exact ⟨e, .fault hfinite hpaired hpairs (by simpa using hbefore) hfault⟩

/-! ### The order of pairs -/

/-- The option list of some keys and values. -/
def ofEntries (entries : List (Int32 × Int32)) : List OptionValue :=
  entries.flatMap fun (key, value) => [.int key, .int value]

/-- Two option lists differ in the order of pairs with different keys only. -/
def Rearranges (options options' : List OptionValue) : Prop :=
  ∃ entries entries', options = ofEntries entries ∧ options' = ofEntries entries' ∧
    ∀ key, entries.filter (·.1 = key) = entries'.filter (·.1 = key)

lemma pairs_ofEntries (entries : List (Int32 × Int32)) :
    pairs (ofEntries entries) = entries.map fun (key, value) => (.int key, .int value) := by
  induction entries with
  | nil => rfl
  | cons entry rest ih => simpa [ofEntries] using ih

lemma lastValue?_ofEntries (entries : List (Int32 × Int32)) (key : Int32) :
    lastValue? (ofEntries entries) key = (entries.filter (·.1 = key)).getLast?.map Prod.snd := by
  rw [lastValue?, pairs_ofEntries, ← List.map_reverse, List.findSome?_map,
    List.getLast?_eq_head?_reverse, ← List.filter_reverse, List.head?_filter]
  induction entries.reverse with
  | nil => rfl
  | cons entry rest ih =>
    by_cases h : entry.1 = key
    · simp [h]
    · simp [h, ih]

lemma readable_ofEntries {entries : List (Int32 × Int32)} :
    Readable start stop (ofEntries entries) ↔
      (∀ x ∈ coordinates start stop, x.isFinite = true) ∧
        ∀ entry ∈ entries, 0 ≤ entry.1 ∧ entry.1 ≤ 4 := by
  have hlength : (ofEntries entries).length % 2 = 0 := by
    simp [ofEntries, List.length_flatMap]
  rw [readable_iff, pairs_ofEntries, List.forall_mem_map]
  simp only [sets_int_int, hlength, true_and]

lemma Rearranges.readable_iff {options' : List OptionValue} (h : Rearranges options options') :
    Readable start stop options ↔ Readable start stop options' := by
  obtain ⟨entries, entries', rfl, rfl, hentries⟩ := h
  have hmem (entry : Int32 × Int32) : entry ∈ entries ↔ entry ∈ entries' := by
    have hkey := congrArg (entry ∈ ·) (hentries entry.1)
    simpa using hkey
  simp only [readable_ofEntries, hmem]

lemma Rearranges.described_eq {options' : List OptionValue} (h : Rearranges options options')
    (start stop : Vec3 Float32) (ceiling : ℕ) :
    described start stop options ceiling = described start stop options' ceiling := by
  obtain ⟨entries, entries', rfl, rfl, hentries⟩ := h
  simp only [described, settled, lastValue?_ofEntries, hentries]

lemma parse_eq_ok_iff {r : Request} : parse start stop options ceiling = .ok r ↔
    Readable start stop options ∧ r = described start stop options ceiling := by
  constructor
  · intro hparse
    rcases readable_or_refuses start stop options with hread | ⟨e, hrefuses⟩
    · rw [parse_of_readable hread] at hparse
      exact ⟨hread, (Except.ok.inj hparse).symm⟩
    · rw [parse_of_refuses hrefuses] at hparse
      cases hparse
  · rintro ⟨hread, rfl⟩
    exact parse_of_readable hread ceiling

lemma parse_eq_error_iff {e : RequestError} :
    parse start stop options ceiling = .error e ↔ Refuses start stop options e := by
  constructor
  · intro hparse
    rcases readable_or_refuses start stop options with hread | ⟨e', hrefuses⟩
    · rw [parse_of_readable hread] at hparse
      cases hparse
    · rw [parse_of_refuses hrefuses] at hparse
      exact Except.error.inj hparse ▸ hrefuses
  · intro hrefuses
    exact parse_of_refuses hrefuses ceiling

lemma asks_iff {r : Request} :
    Asks start stop options ceiling r ↔ r = described start stop options ceiling := by
  constructor
  · intro h
    exact h.eq (asks_described start stop options ceiling)
  · rintro rfl
    exact asks_described start stop options ceiling

/-- Requests are read as asked for exactly when they can be read. Otherwise the first fault is
reported: of the endpoints, then of the number of elements, then of the pairs in order. Pairs with
different keys may change places. -/
theorem parse_reads (start stop : Vec3 Float32) (options : List OptionValue) (ceiling : ℕ) :
    ((∃ r, parse start stop options ceiling = .ok r) ↔ Readable start stop options) ∧
    (∀ r, parse start stop options ceiling = .ok r ↔
      Readable start stop options ∧ Asks start stop options ceiling r) ∧
    (∀ e, parse start stop options ceiling = .error e ↔ Refuses start stop options e) ∧
    ∀ options', Rearranges options options' → ∀ r,
      (parse start stop options ceiling = .ok r ↔ parse start stop options' ceiling = .ok r) := by
  refine ⟨?_, ?_, ?_, ?_⟩
  · constructor
    · rintro ⟨r, hparse⟩
      exact (parse_eq_ok_iff.mp hparse).1
    · intro hread
      exact ⟨_, parse_of_readable hread ceiling⟩
  · intro r
    rw [parse_eq_ok_iff, asks_iff]
  · intro e
    exact parse_eq_error_iff
  · intro options' hrearranges r
    rw [parse_eq_ok_iff, parse_eq_ok_iff, hrearranges.readable_iff,
      hrearranges.described_eq start stop ceiling]

/-- The number of hits is given twice and more than the ceiling; a bit of the mask is not known. -/
theorem parse_reads_twice :
    let start : Vec3 Float32 := ⟨0, 0, 10⟩
    let stop : Vec3 Float32 := ⟨0, 0, 0⟩
    let options := ofEntries [(3, -1), (0, 25), (3, 40)]
    let options' := ofEntries [(0, 25), (3, -1), (3, 40)]
    let r : Request :=
      { segment := ⟨start, stop⟩, reject := ⟨true, false, false, true⟩, maxHits := 16 }
    Rearranges options options' ∧ parse start stop options 16 = .ok r ∧
      parse start stop options' 16 = .ok r := by
  intro start stop options options' r
  have hrearranges : Rearranges options options' := by
    refine ⟨_, _, rfl, rfl, ?_⟩
    intro key
    by_cases h : (3 : Int32) = key
    · subst h
      rfl
    · simp [List.filter_cons, h]
  have hfinite : (⟨start, stop⟩ : Segment Float32).isFinite = true := by decide +kernel
  have hparse : parse start stop options 16 = .ok r := by
    simp only [parse, hfinite, Bool.not_true, Bool.false_eq_true, if_false]
    rw [if_neg (by decide)]
    rfl
  exact ⟨hrearranges, hparse, ((parse_reads start stop options 16).2.2.2 _ hrearranges r).mp hparse⟩

end Request

end Sightline
