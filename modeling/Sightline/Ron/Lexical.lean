import Sightline.Decimal.Scientific
import Sightline.Text.Reader

/-!
# The words of RON

Blanks with comments in them, names, numbers, strings and characters of the object notation RON.
-/

namespace Sightline

namespace Ron

def isBlank (c : Char) : Bool := c == ' ' || c == '\t' || c == '\n' || c == '\r'

def isNameStart (c : Char) : Bool := c.isAlpha || c == '_'

def isNameChar (c : Char) : Bool := c.isAlphanum || c == '_'

/-- A character of a name that is marked as such. -/
def isRawNameChar (c : Char) : Bool := isNameChar c || c == '.' || c == '+' || c == '-'

/-- What is left after a comment between `/*` and `*/`, when `level` of them are open. -/
def afterBlock (level : Nat) : List Char → Option (List Char)
  | [] => none
  | '/' :: '*' :: rest => afterBlock (level + 1) rest
  | '*' :: '/' :: rest => if level ≤ 1 then some rest else afterBlock (level - 1) rest
  | _ :: rest => afterBlock level rest

def afterBlanks : (steps : Nat) → List Char → Option (List Char)
  | 0, _ => none
  | steps + 1, cs =>
    match cs.dropWhile isBlank with
    | '/' :: '/' :: rest => afterBlanks steps (rest.dropWhile (· != '\n'))
    | '/' :: '*' :: rest => do
      let rest ← afterBlock 1 rest
      afterBlanks steps rest
    | '/' :: _ => none
    | rest => some rest

def blanks : Reader Unit := fun cs => (afterBlanks (cs.length + 1) cs).map fun rest => ((), rest)

/-- Take a comma with the blanks around it; tell whether there was one. -/
def comma : Reader Bool := do
  blanks
  if ← Reader.optionalChar ',' then
    blanks
    return true
  else return false

/-- The text goes on with a word that does not go on itself. -/
def startsWord (word cs : List Char) : Bool :=
  word.isPrefixOf cs && !(cs.drop word.length).head?.any isNameChar

def optionalWord (word : String) : Reader Bool := fun cs =>
  if startsWord word.toList cs then some (true, cs.drop word.length) else some (false, cs)

def oneOf (words : List String) : Reader (Option String) := fun cs =>
  match words.find? fun word => startsWord word.toList cs with
  | some word => some (some word, cs.drop word.length)
  | none => some (none, cs)

/-- A name. One with unusual characters is marked with `r#`. -/
def name : Reader String := fun cs =>
  match cs with
  | 'r' :: '"' :: _ => none
  | ['r'] => none
  | 'r' :: '#' :: rest =>
    if rest.head?.any isRawNameChar then
      some (String.ofList (rest.takeWhile isRawNameChar), rest.dropWhile isRawNameChar)
    else none
  | c :: _ =>
    if isNameStart c then some (String.ofList (cs.takeWhile isNameChar), cs.dropWhile isNameChar)
    else none
  | [] => none

def isIntegerChar (c : Char) : Bool := isHexDigit c || c == '_'

def isFloatChar (c : Char) : Bool :=
  c.isDigit || c == 'e' || c == 'E' || c == '.' || c == '+' || c == '-' || c == '_'

/-- The base of a whole number and the number of characters of its mark. -/
def baseOf (cs : List Char) : Nat × Nat :=
  match cs with
  | '0' :: 'x' :: _ => (16, 2)
  | '0' :: 'o' :: _ => (8, 2)
  | '0' :: 'b' :: _ => (2, 2)
  | _ => (10, 0)

/-- A whole number without a sign. Underscores may stand anywhere but in front. -/
def natural : Reader Nat := do
  let (base, mark) := baseOf (← Reader.rest)
  let _ ← Reader.exactly mark fun _ => true
  let cs ← Reader.takeWhile1 isIntegerChar
  if cs.head? = some '_' then failure
  valueInBase? base (cs.filter (· != '_'))

def floatWords : List (String × Float32) :=
  let infinity := Float32.ofBits 0x7f800000
  let nan := Float32.ofBits 0x7fc00000
  [("inf", infinity), ("+inf", infinity), ("-inf", -infinity),
   ("NaN", nan), ("+NaN", nan), ("-NaN", nan)]

def float : Reader Float32 := do
  match ← oneOf (floatWords.map Prod.fst) with
  | some word => floatWords.lookup word
  | none => do
    let number ← Scientific.ofChars? (← Reader.takeWhile isFloatChar)
    return number.toSingle

def boolean : Reader Bool := do
  match ← oneOf ["true", "false"] with
  | some word => return word == "true"
  | none => failure

/-- The text goes on with a number that has a fraction, or a signed power of ten. -/
def startsFloat (cs : List Char) : Bool :=
  let digits := match cs with
    | '+' :: rest => rest
    | '-' :: rest => rest
    | rest => rest
  (digits.takeWhile isIntegerChar).length < (digits.takeWhile isFloatChar).length

/-- A whole number that fits into 64 bits, with a sign if it has one. -/
def wordInteger : Reader Unit := do
  match ← Reader.peek with
  | some '+' => do
    let _ ← Reader.next
    if 0x8000000000000000 ≤ (← natural) then failure
  | some '-' => do
    let _ ← Reader.next
    if 0x8000000000000000 < (← natural) then failure
  | _ => if UInt64.size ≤ (← natural) then failure

/-- A number of either kind; a whole number that does not fit counts as a float. -/
def number : Reader Unit := fun cs =>
  if startsFloat cs then (discard float) cs
  else
    match wordInteger cs with
    | some result => some result
    | none => (discard float) cs

def bracedDigits (most : Nat) : Reader (List Char) := do
  Reader.char '\x7b'
  let digits ← Reader.takeWhile isHexDigit
  Reader.char '\x7d'
  if digits.isEmpty ∨ most < digits.length then failure
  return digits

def escape : Reader Unit := do
  let c ← Reader.next
  if "'\"\\nrt0".toList.contains c then return ()
  else if c == 'x' then discard (Reader.exactly 2 isHexDigit)
  else if c == 'u' then
    let n ← valueInBase? 16 (← bracedDigits 6)
    discard (charOfNat? n : Option Char)
  else failure

/-- The rest of a string with escapes, its closing quote included. -/
def stringRest : (steps : Nat) → Reader Unit
  | 0 => failure
  | steps + 1 => do
    match ← Reader.next with
    | '"' => return ()
    | '\\' => do
      escape
      stringRest steps
    | _ => stringRest steps

/-- What is left after the first place where a text stands. -/
def afterText (text : List Char) : List Char → Option (List Char)
  | [] => none
  | c :: cs =>
    if text.isPrefixOf (c :: cs) then some ((c :: cs).drop text.length) else afterText text cs

/-- A string without escapes: any number of hash signs after the mark stand again at its end. -/
def rawString : Reader Unit := do
  Reader.char 'r'
  let hashes ← Reader.takeWhile (· == '#')
  Reader.char '"'
  set (← (afterText ('"' :: hashes) (← Reader.rest) : Option (List Char)))

def string : Reader Unit := do
  if ← Reader.optionalChar '"' then stringRest ((← Reader.rest).length + 1)
  else rawString

def character : Reader Unit := do
  Reader.char '\''
  if ← Reader.optionalChar '\\' then escape
  else discard (Reader.satisfy (· != '\''))
  Reader.char '\''

end Ron

end Sightline
