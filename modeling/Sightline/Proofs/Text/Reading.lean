import Mathlib.Tactic
import Sightline.Text.Reader

/-!
# What readers take

A reader is specified by the texts it takes: from a text it reads a value and leaves a rest. What a
reader takes of a longer text often depends on the character that follows.
-/

namespace Sightline

namespace Reader

variable {β γ : Type} {cs text rest rest' : List Char} {c : Char} {p : Char → Bool}

/-- A reader reads a value from a text and leaves a rest. -/
def Reads (r : Reader β) (cs : List Char) (b : β) (rest : List Char) : Prop :=
  r cs = some (b, rest)

/-- A text does not go on with a character that passes a test. -/
def Stops (p : Char → Bool) (cs : List Char) : Prop := ∀ c ∈ cs.head?, p c = false

@[simp] lemma stops_nil : Stops p [] := by simp [Stops]

@[simp] lemma stops_cons : Stops p (c :: cs) ↔ p c = false := by simp [Stops]

/-- None of some characters passes a test. -/
lemma forall_mem_false (h : text.any p = false) : ∀ c ∈ text, p c = false := by
  simpa using h

/-! ### Digits -/

lemma mem_of_isDigit {c : Char} (h : c.isDigit = true) : c ∈ "0123456789".toList := by
  have hbounds : 48 ≤ c.toNat ∧ c.toNat ≤ 57 := by
    simpa [Char.isDigit, UInt32.le_iff_toNat_le] using h
  obtain ⟨hlow, hhigh⟩ := hbounds
  rw [← Char.ofNat_toNat c]
  interval_cases c.toNat <;> decide

lemma ne_of_isDigit {c d : Char} (h : c.isDigit = true) (hd : d.isDigit = false) :
    (c == d) = false := by
  rw [beq_eq_false_iff_ne]
  rintro rfl
  rw [h] at hd
  cases hd

/-- A text that begins with a digit goes on with no character that is none. -/
lemma stops_of_isDigit (htext : text ≠ []) (hdigits : ∀ c ∈ text, c.isDigit = true)
    (hp : ∀ c : Char, c.isDigit = true → p c = false) : Stops p (text ++ rest) := by
  intro c hc
  rw [List.head?_append_of_ne_nil _ htext] at hc
  exact hp c (hdigits c (List.mem_of_head? hc))

/-- The second character belongs to a word, or follows it. -/
lemma second_of_append (htext : text ≠ []) (hall : ∀ c ∈ text, p c = true)
    (h : (text ++ rest)[1]? = some c) : p c = true ∨ rest.head? = some c := by
  obtain ⟨d, ds, rfl⟩ := List.exists_cons_of_ne_nil htext
  cases ds with
  | nil =>
    right
    simpa [List.head?_eq_getElem?] using h
  | cons e ds =>
    left
    obtain rfl : e = c := by simpa using h
    exact hall e (by simp)

/-! ### Putting readers together -/

lemma Reads.bind_eq {r : Reader β} {f : β → Reader γ} {b : β} (h : r.Reads cs b rest) :
    (r >>= f) cs = f b rest := by
  have hr : r cs = some (b, rest) := h
  have hbind : (r >>= f) cs = (r cs).bind fun (b, rest) => f b rest := rfl
  rw [hbind, hr]
  rfl

lemma Reads.bind {r : Reader β} {f : β → Reader γ} {b : β} {d : γ} (h : r.Reads cs b rest)
    (hf : (f b).Reads rest d rest') : (r >>= f).Reads cs d rest' := h.bind_eq.trans hf

lemma reads_pure (b : β) (cs : List Char) : (pure b : Reader β).Reads cs b cs := rfl

lemma Reads.map {r : Reader β} {b : β} (h : r.Reads cs b rest) (f : β → γ) :
    (f <$> r).Reads cs (f b) rest := by
  have hr : r cs = some (b, rest) := h
  have hmap : (f <$> r) cs = (r cs).bind fun (b, rest) => some (f b, rest) := rfl
  rw [Reads, hmap, hr]
  rfl

lemma Reads.discard {r : Reader β} {b : β} (h : r.Reads cs b rest) :
    (discard r).Reads cs () rest := h.map fun _ => ()

/-- A value that does not depend on the text. -/
lemma reads_lift {o : Option β} {b : β} (h : o = some b) (cs : List Char) :
    (liftM o : Reader β).Reads cs b cs := by
  subst h
  rfl

lemma Reads.run?_eq {r : Reader β} {b : β} (h : r.Reads text b []) : r.run? text = some b := by
  have hr : r text = some (b, []) := h
  rw [run?, hr]

/-! ### Single readers -/

lemma reads_peek (cs : List Char) : peek.Reads cs cs.head? cs := rfl

lemma reads_rest (cs : List Char) : Reader.rest.Reads cs cs cs := rfl

lemma reads_next (c : Char) (cs : List Char) : next.Reads (c :: cs) c cs := rfl

lemma reads_char (c : Char) (cs : List Char) : (char c).Reads (c :: cs) () cs := by
  simp [Reads, char, satisfy]

lemma reads_optionalChar (c : Char) (cs : List Char) :
    (optionalChar c).Reads (c :: cs) true cs := by
  simp [Reads, optionalChar]

lemma reads_optionalChar_of_stops (h : Stops (· == c) cs) :
    (optionalChar c).Reads cs false cs := by
  cases cs with
  | nil => rfl
  | cons d cs =>
    have hd : (d == c) = false := h d rfl
    simp [Reads, optionalChar, hd]

lemma reads_text (text cs : List Char) : (Reader.text text).Reads (text ++ cs) () cs := by
  simp [Reads, Reader.text]

lemma reads_optionalText (text cs : List Char) :
    (optionalText text).Reads (text ++ cs) true cs := by
  simp [Reads, optionalText]

lemma reads_optionalText_of_differs (h : ¬ text <+: cs) :
    (optionalText text).Reads cs false cs := by
  have hfalse : text.isPrefixOf cs = false := by
    rw [Bool.eq_false_iff, Ne, List.isPrefixOf_iff_prefix]
    exact h
  simp [Reads, optionalText, hfalse]

lemma takeWhile_append (hall : ∀ c ∈ text, p c = true) (hstop : Stops p rest) :
    (text ++ rest).takeWhile p = text ∧ (text ++ rest).dropWhile p = rest := by
  rw [List.takeWhile_append_of_pos hall, List.dropWhile_append_of_pos hall]
  cases rest with
  | nil => simp
  | cons c rest =>
    have hc : p c = false := stops_cons.mp hstop
    simp [hc]

lemma reads_takeWhile (hall : ∀ c ∈ text, p c = true) (hstop : Stops p rest) :
    (Reader.takeWhile p).Reads (text ++ rest) text rest := by
  obtain ⟨htake, hdrop⟩ := takeWhile_append hall hstop
  rw [Reads, Reader.takeWhile, htake, hdrop]

lemma reads_takeWhile1 (hne : text ≠ []) (hall : ∀ c ∈ text, p c = true) (hstop : Stops p rest) :
    (takeWhile1 p).Reads (text ++ rest) text rest := by
  obtain ⟨htake, hdrop⟩ := takeWhile_append hall hstop
  rw [Reads, takeWhile1, htake, hdrop, if_neg (by simpa using hne)]

end Reader

end Sightline
