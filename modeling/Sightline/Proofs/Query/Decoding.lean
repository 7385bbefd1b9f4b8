import Mathlib.Tactic
import Sightline.Query.Reply
import Sightline.Text.Reader

/-!
# What replies tell

A reply is a flat list without lengths in it, but those who know what they asked for can take it
apart again: all hits have the same number of entries, and names are told apart by their digits. So
replies are equal only if they tell the same.
-/

namespace Sightline

/-! ### Names -/

/-- The name with a given text. -/
def EntityId.ofText? (text : String) : Option EntityId :=
  (valueInBase? 16 text.toList).map fun n => ⟨UInt64.ofNat n⟩

lemma hexValue?_digitChar : ∀ digit < 16, hexValue? (Nat.digitChar digit) = some digit := by decide

lemma valueInBase?_append_singleton {base n digit : ℕ} {cs : List Char} {c : Char}
    (hcs : valueInBase? base cs = some n) (hc : hexValue? c = some digit) (hdigit : digit < base) :
    valueInBase? base (cs ++ [c]) = some (base * n + digit) := by
  rw [valueInBase?] at hcs
  rw [valueInBase?, List.foldlM_append, hcs]
  simp [hc, hdigit]

lemma valueInBase?_hexDigits (width n : ℕ) :
    valueInBase? 16 (hexDigits width n) = some (n % 16 ^ width) := by
  induction width generalizing n with
  | zero => simp [hexDigits, valueInBase?, Nat.mod_one]
  | succ width ih =>
    have hlast : n % 16 < 16 := Nat.mod_lt n (by decide)
    rw [hexDigits, valueInBase?_append_singleton (ih (n / 16)) (hexValue?_digitChar _ hlast) hlast,
      Nat.pow_succ, Nat.mul_comm (16 ^ width), Nat.mod_mul, Nat.add_comm]

/-- Names are read back from their digits. -/
lemma EntityId.ofText?_text (id : EntityId) : ofText? id.text = some id := by
  have hfits : id.value.toNat % 16 ^ 16 = id.value.toNat := Nat.mod_eq_of_lt id.value.toNat_lt
  rw [ofText?, text, String.toList_ofList, valueInBase?_hexDigits, hfits, Option.map_some,
    UInt64.ofNat_toNat]

namespace Reply

/-! ### Strides -/

/-- What is told about a hit. -/
structure Told where
  /-- The name that was asked for. -/
  id : EntityId
  /-- The link number, if it was asked for. -/
  link : Option Int32
  /-- Where the hit is. -/
  position : Vec3 Float32
  /-- The surface normal, if it was asked for. -/
  normal : Option (Vec3 Float32)

/-- What a reply has to tell about a hit. -/
def told (flags : DataFlags) (hit : Hit) : Told where
  id := if flags.rootKey then hit.group else hit.part
  link := if flags.linkNumber then some hit.link else none
  position := hit.position
  normal := if flags.normal then some hit.normal else none

/-- The entries of a reply that tell something about a hit. -/
def Told.values (t : Told) : List OptionValue :=
  [.text t.id.text] ++ (t.link.map .int).toList ++ [.vector t.position] ++
    (t.normal.map .vector).toList

/-- Nothing else of a hit goes into a reply. -/
lemma stride_eq_values (flags : DataFlags) (hit : Hit) :
    stride flags hit = (told flags hit).values := by
  unfold stride told Told.values
  cases flags.linkNumber <;> cases flags.normal <;> rfl

/-! ### Taking replies apart -/

/-- Takes something off the front of a list of values. -/
abbrev Decoder (β : Type) := List OptionValue → Option (β × List OptionValue)

/-- Take a name. -/
def takeName : Decoder EntityId
  | .text text :: rest => (EntityId.ofText? text).map fun id => (id, rest)
  | _ => none

/-- Take an integer. -/
def takeInteger : Decoder Int32
  | .int n :: rest => some (n, rest)
  | _ => none

/-- Take a vector. -/
def takeVector : Decoder (Vec3 Float32)
  | .vector v :: rest => some (v, rest)
  | _ => none

/-- Take something only if it was asked for. -/
def takeIf {β : Type} (asked : Bool) (take : Decoder β) : Decoder (Option β) := fun values =>
  if asked then (take values).map fun (b, rest) => (some b, rest) else some (none, values)

/-- Take all that is told about a hit. -/
def takeStride (flags : DataFlags) : Decoder Told := fun values => do
  let (id, values) ← takeName values
  let (link, values) ← takeIf flags.linkNumber takeInteger values
  let (position, values) ← takeVector values
  let (normal, values) ← takeIf flags.normal takeVector values
  some (⟨id, link, position, normal⟩, values)

/-- Take what is told about a number of hits. -/
def takeStrides (flags : DataFlags) : (count : ℕ) → Decoder (List Told)
  | 0, values => some ([], values)
  | count + 1, values => do
    let (first, values) ← takeStride flags values
    let (others, values) ← takeStrides flags count values
    some (first :: others, values)

/-- The number of entries for each hit. -/
def width (flags : DataFlags) : ℕ := 2 + flags.linkNumber.toNat + flags.normal.toNat

/-- What a reply tells: about each hit, and how the call went. -/
def decode? (flags : DataFlags) (reply : List OptionValue) : Option (List Told × Int32) := do
  let (hits, values) ← takeStrides flags ((reply.length - 1) / width flags) reply
  let (code, values) ← takeInteger values
  if values.isEmpty then some (hits, code) else none

lemma length_stride (flags : DataFlags) (hit : Hit) :
    (stride flags hit).length = width flags := by
  unfold stride width
  cases flags.linkNumber <;> cases flags.normal <;> rfl

lemma takeStride_append (flags : DataFlags) (hit : Hit) (rest : List OptionValue) :
    takeStride flags (stride flags hit ++ rest) = some (told flags hit, rest) := by
  have hname (id : EntityId) (values : List OptionValue) :
      takeName (.text id.text :: values) = some (id, values) := by
    simp [takeName, EntityId.ofText?_text]
  cases hlink : flags.linkNumber <;> cases hnormal : flags.normal <;>
    simp [takeStride, stride, told, takeIf, takeInteger, takeVector, hname, hlink, hnormal]

lemma takeStrides_append (flags : DataFlags) (hits : List Hit) (rest : List OptionValue) :
    takeStrides flags hits.length (hits.flatMap (stride flags) ++ rest) =
      some (hits.map (told flags), rest) := by
  induction hits with
  | nil => rfl
  | cons hit hits ih =>
    simp [takeStrides, List.append_assoc, takeStride_append, ih]

lemma length_format (flags : DataFlags) (hits : List Hit) (status : Status) :
    (format flags hits status).length = hits.length * width flags + 1 := by
  simp [format, List.length_flatMap, length_stride]

/-- A reply tells all that was asked for. -/
lemma decode?_format (flags : DataFlags) (hits : List Hit) (status : Status) :
    decode? flags (format flags hits status) = some (hits.map (told flags), status.code) := by
  have hwidth : 0 < width flags := by
    unfold width
    omega
  have hcount : ((format flags hits status).length - 1) / width flags = hits.length := by
    rw [length_format, Nat.add_sub_cancel, Nat.mul_div_cancel _ hwidth]
  have htaken : takeStrides flags hits.length (format flags hits status) =
      some (hits.map (told flags), [.int status.code]) :=
    takeStrides_append flags hits [.int status.code]
  simp [decode?, hcount, htaken, takeInteger]

/-- From a reply all can be read that was asked for, and the status code. Two replies are the same
exactly when they tell the same about each hit and have the same code. -/
theorem format_tells (flags : DataFlags) :
    (∀ hits status, decode? flags (format flags hits status) =
      some (hits.map (told flags), status.code)) ∧
    ∀ hits hits' status status', format flags hits status = format flags hits' status' ↔
      hits.map (told flags) = hits'.map (told flags) ∧ status.code = status'.code := by
  refine ⟨decode?_format flags, ?_⟩
  intro hits hits' status status'
  constructor
  · intro hsame
    have hdecoded := congrArg (decode? flags) hsame
    rw [decode?_format, decode?_format, Option.some.injEq, Prod.mk.injEq] at hdecoded
    exact hdecoded
  · rintro ⟨htold, hcode⟩
    have hstrides (list : List Hit) :
        list.flatMap (stride flags) = (list.map (told flags)).flatMap Told.values := by
      rw [List.flatMap_map, funext (stride_eq_values flags)]
    rw [format, format, hstrides, hstrides, htold, hcode]

/-- Hits of one group are told apart by the link number, if it is asked for. -/
example : let hit (link : Int32) : Hit := ⟨⟨5⟩, ⟨9⟩, link, Vec3.zero, Vec3.zero, ⟨0⟩⟩
    decode? ⟨false, true, true⟩ (format ⟨false, true, true⟩ [hit 3, hit 4] (.hits 2)) =
      some ([⟨⟨9⟩, some 3, Vec3.zero, none⟩, ⟨⟨9⟩, some 4, Vec3.zero, none⟩], 2) := rfl

end Reply

end Sightline
