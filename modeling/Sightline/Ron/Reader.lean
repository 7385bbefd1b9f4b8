import Sightline.Ron.Lexical

/-!
# Reading RON

The notation is read for what is expected: a record of known fields, a word of a list, a number. A
field that is not known may hold any value, which is passed over. `depth` is the number of levels
that may still be nested, and `e` holds the extensions of the notation that are in use.
-/

namespace Sightline

namespace Ron

def maxDepth : Nat := 128

structure Extensions where
  /-- The brackets around the value that follows `Some` may be left out. -/
  bareSome : Bool := false
deriving DecidableEq, Repr

/-- The text goes on with fields rather than with plain values, after the opening bracket. -/
def startsFields : Reader Bool := fun cs => do
  let ((), inner) ← (do Reader.char '('; blanks) cs
  match name inner with
  | none => return (false, cs)
  | some (_, rest) =>
    let (c, _) ← (do blanks; Reader.next) rest
    return (c == ':', cs)

mutual
def skip (e : Extensions) : (steps depth : Nat) → Reader Unit
  | 0, _ => failure
  | steps + 1, depth => do
    if (← oneOf ["true", "false"]).isSome then return ()
    if startsWord "Some".toList (← Reader.rest) then
      Reader.text "Some".toList
      blanks
      if depth = 0 then failure
      if ← Reader.optionalChar '(' then
        blanks
        skip e steps (depth - 1)
        let _ ← comma
        Reader.char ')'
      else if e.bareSome then skip e steps (depth - 1)
      else failure
      return ()
    if ← optionalWord "None" then return ()
    if ← Reader.optionalText ['(', ')'] then return ()
    if (← oneOf ["inf", "-inf", "NaN"]).isSome then return ()
    let cs ← Reader.rest
    match name cs with
    | some (_, rest) => do
      set rest
      blanks
      if (← Reader.peek) == some '(' then skipBracket e steps depth
    | none =>
      match cs.head? with
      | some '(' => skipBracket e steps depth
      | some '[' => do
        Reader.char '['
        skipItems e steps depth ']'
      | some '\x7b' => do
        Reader.char '\x7b'
        skipPairs e steps depth '\x7d'
      | some '"' | some 'r' => string
      | some '\'' => character
      | some '.' => discard float
      | some c => if c.isDigit || c == '+' || c == '-' then number else failure
      | none => failure

def skipBracket (e : Extensions) : (steps depth : Nat) → Reader Unit
  | 0, _ => failure
  | steps + 1, depth => do
    let fields ← startsFields
    Reader.char '('
    if fields then skipPairs e steps depth ')' else skipItems e steps depth ')'

def skipItems (e : Extensions) : (steps depth : Nat) → (close : Char) → Reader Unit
  | 0, _, _ => failure
  | steps + 1, depth, close => do
    if depth = 0 then failure
    blanks
    if ← Reader.optionalChar close then return ()
    if depth ≤ 1 then failure
    skip e steps (depth - 2)
    if ← comma then skipItems e steps depth close else Reader.char close

/-- Pass over keys and values up to a closing bracket. In a record the keys are names. -/
def skipPairs (e : Extensions) : (steps depth : Nat) → (close : Char) → Reader Unit
  | 0, _, _ => failure
  | steps + 1, depth, close => do
    if depth = 0 then failure
    blanks
    if ← Reader.optionalChar close then return ()
    if depth ≤ 1 then failure
    if close == ')' then discard name else skip e steps (depth - 2)
    blanks
    Reader.char ':'
    blanks
    skip e steps (depth - 2)
    if ← comma then skipPairs e steps depth close else Reader.char close
end

def skipValue (e : Extensions) (depth : Nat) : Reader Unit := do
  skip e (4 * ((← Reader.rest).length + 1)) depth

/-- A field of a record: its name, and how its value is read into the record. The value is handed
the extensions in use and the number of levels that may still be nested. -/
structure Field (σ : Type) where
  name : String
  read : (e : Extensions) → (depth : Nat) → σ → Reader σ

/-- The fields of a record up to its closing bracket. Each known field may be given once. -/
def fieldsOf {σ : Type} (fields : List (Field σ)) (e : Extensions) (depth : Nat) :
    (steps : Nat) → (seen : List String) → σ → Reader σ
  | 0, _, _ => failure
  | steps + 1, seen, s => do
    blanks
    if ← Reader.optionalChar ')' then return s
    let key ← name
    blanks
    Reader.char ':'
    blanks
    let s ← match fields.find? (·.name == key) with
      | some field => if seen.contains key then failure else field.read e depth s
      | none => do
        skipValue e depth
        pure s
    if ← comma then fieldsOf fields e depth steps (key :: seen) s
    else
      Reader.char ')'
      return s

/-- A record of known fields, which may be preceded by the name of its type. Fields that are not
given keep the value they have in `s`. -/
def record {σ : Type} (typeName : String) (fields : List (Field σ)) (e : Extensions)
    (depth : Nat) (s : σ) : Reader σ := do
  if (← Reader.peek).any isNameChar then
    if (← name) ≠ typeName then failure
  blanks
  Reader.char '('
  fieldsOf fields e (depth - 2) ((← Reader.rest).length + 1) [] s

def oneWord {β : Type} (words : List (String × β)) : Reader β := do words.lookup (← name)

/-- Three floats in brackets. A comma may follow the last of them. -/
def triple : Reader (Float32 × Float32 × Float32) := do
  let item : Reader (Float32 × Bool) := do
    blanks
    let x ← float
    return (x, ← comma)
  Reader.char '('
  let (x, more) ← item
  if !more then failure
  let (y, more) ← item
  if !more then failure
  let (z, _) ← item
  Reader.char ')'
  return (x, y, z)

/-- What the names of extensions turn on. Most of them do not matter for the values read here. -/
def extensionNames : List (String × (Extensions → Extensions)) :=
  [("unwrap_newtypes", id), ("implicit_some", fun e => { e with bareSome := true }),
   ("unwrap_variant_newtypes", id)]

/-- The names in an attribute, with commas between them, added to the extensions in use. -/
def enabled : (steps : Nat) → Extensions → Reader Extensions
  | 0, _ => failure
  | steps + 1, e => do
    let turnOn ← (extensionNames.lookup (← name) : Option (Extensions → Extensions))
    if ← comma then
      if (← Reader.peek).any isNameChar then enabled steps (turnOn e)
      else return turnOn e
    else return turnOn e

def attributes : (steps : Nat) → Extensions → Reader Extensions
  | 0, _ => failure
  | steps + 1, e => do
    blanks
    if (← Reader.peek) == some '#' then
      for word in ["#", "!", "[", "enable", "("] do
        blanks
        Reader.text word.toList
      blanks
      let e ← enabled ((← Reader.rest).length + 1) e
      blanks
      Reader.char ')'
      blanks
      Reader.char ']'
      attributes steps e
    else return e

/-- A whole text: attributes, a value, and nothing after it. -/
def read? {β : Type} (value : Extensions → Reader β) (text : String) : Option β :=
  let whole : Reader β := do
    let e ← attributes ((← Reader.rest).length + 1) {}
    let b ← value e
    blanks
    return b
  Reader.run? whole text.toList

end Ron

end Sightline
