import Sightline.Text.Reader
import Sightline.Toml.Value

/-!
# The words of TOML

Blanks, comments, keys, strings, numbers, dates and times.
-/

namespace Sightline

namespace Toml

def isBlank (c : Char) : Bool := c == ' ' || c == '\t'

/-- A character that may stand in a comment. -/
def isCommentChar (c : Char) : Bool :=
  c == '\t' || (0x20 ≤ c.toNat && c.toNat ≤ 0x7e) || 0x80 ≤ c.toNat

def isBasicChar (c : Char) : Bool := isCommentChar c && c != '"' && c != '\\'

def isLiteralChar (c : Char) : Bool := isCommentChar c && c != '\''

def isBareChar (c : Char) : Bool := c.isAlphanum || c == '_' || c == '-'

def blanks : Reader Unit := discard (Reader.takeWhile isBlank)

def comment : Reader Unit := do
  if ← Reader.optionalChar '#' then discard (Reader.takeWhile isCommentChar)

/-- What is left after the end of a line; none if the line does not end here. -/
def afterNewline? : List Char → Option (List Char)
  | '\n' :: rest => some rest
  | '\r' :: '\n' :: rest => some rest
  | _ => none

def newline : Reader Unit := fun cs => (afterNewline? cs).map fun rest => ((), rest)

def lineEnd : Reader Unit := do
  blanks
  comment
  if (← Reader.peek).isSome then newline

def afterSpace : List Char → List Char
  | ' ' :: rest => afterSpace rest
  | '\t' :: rest => afterSpace rest
  | '\n' :: rest => afterSpace rest
  | '\r' :: '\n' :: rest => afterSpace rest
  | rest => rest

/-- What is left after blanks, line ends and comments; `inComment` tells that a comment has begun. -/
def afterTrivia (inComment : Bool) : List Char → List Char
  | [] => []
  | '\r' :: '\n' :: rest => afterTrivia false rest
  | c :: rest =>
    if c == '\n' then afterTrivia false rest
    else if inComment then if isCommentChar c then afterTrivia true rest else c :: rest
    else if isBlank c then afterTrivia false rest
    else if c == '#' then afterTrivia true rest
    else c :: rest

def trivia : Reader Unit := fun cs => some ((), afterTrivia false cs)

def hexEscape (digits : Nat) : Reader Char := do
  let cs ← Reader.exactly digits isHexDigit
  let n ← valueInBase? 16 cs
  charOfNat? n

def escape : Reader Char := do
  match ← Reader.next with
  | 'b' => return '\x08'
  | 't' => return '\t'
  | 'n' => return '\n'
  | 'f' => return '\x0c'
  | 'r' => return '\r'
  | '"' => return '"'
  | '\\' => return '\\'
  | 'u' => hexEscape 4
  | 'U' => hexEscape 8
  | _ => failure

/-- The rest of a string with escapes on one line, its closing quote included. -/
def basicRest : (fuel : Nat) → Reader (List Char)
  | 0 => failure
  | fuel + 1 => do
    match ← Reader.next with
    | '"' => return []
    | '\\' => do
      let c ← escape
      return c :: (← basicRest fuel)
    | c => if isBasicChar c then return c :: (← basicRest fuel) else failure

def literalRest : Reader (List Char) := do
  let cs ← Reader.takeWhile isLiteralChar
  Reader.char '\''
  return cs

/-- Quotes within a string of several lines: up to two stand for themselves. Tells what they stand
for, and whether the string ends with them. -/
def quoteRun (quote : Char) : Reader (List Char × Bool) := fun cs =>
  let n := (cs.takeWhile (· == quote)).length
  if n < 3 then some ((List.replicate n quote, false), cs.drop n)
  else some ((List.replicate (min (n - 3) 2) quote, true), cs.drop (min n 5))

/-- The rest of a string of several lines, its closing quotes included. -/
def multilineRest (quote : Char) (escapes : Bool) : (fuel : Nat) → Reader (List Char)
  | 0 => failure
  | fuel + 1 => do
    let cs ← Reader.rest
    match cs with
    | [] => failure
    | c :: after =>
      if c == quote then
        let (quotes, ends) ← quoteRun quote
        if ends then return quotes
        else return quotes ++ (← multilineRest quote escapes fuel)
      else if escapes && c == '\\' then
        -- a backslash before the end of a line hides it and all blanks after it
        match afterNewline? (after.dropWhile isBlank) with
        | some rest => do
          set (afterSpace rest)
          multilineRest quote escapes fuel
        | none => do
          set after
          let e ← escape
          return e :: (← multilineRest quote escapes fuel)
      else
        match afterNewline? cs with
        | some rest => do
          set rest
          return '\n' :: (← multilineRest quote escapes fuel)
        | none => do
          set after
          if isCommentChar c then return c :: (← multilineRest quote escapes fuel) else failure

def quoted (quote : Char) (escapes : Bool) : Reader String := do
  let cs ← Reader.rest
  if ← Reader.optionalText [quote, quote, quote] then
    let after ← Reader.rest
    set ((afterNewline? after).getD after)
    return String.ofList (← multilineRest quote escapes (cs.length + 1))
  else
    Reader.char quote
    return String.ofList (← if escapes then basicRest (cs.length + 1) else literalRest)

def simpleKey : Reader String := do
  match ← Reader.peek with
  | some '"' => do
    Reader.char '"'
    let cs ← Reader.rest
    return String.ofList (← basicRest (cs.length + 1))
  | some '\'' => do
    Reader.char '\''
    return String.ofList (← literalRest)
  | _ => return String.ofList (← Reader.takeWhile1 isBareChar)

/-- The greatest depth of nesting, of values and of keys. -/
def maxDepth : Nat := 80

/-- Keys with points between them, and blanks around each. -/
def dottedKey : (fuel : Nat) → Reader (List String)
  | 0 => failure
  | fuel + 1 => do
    blanks
    let key ← simpleKey
    blanks
    if ← Reader.optionalChar '.' then return key :: (← dottedKey fuel) else return [key]

def key : Reader (List String) := dottedKey (maxDepth - 1)

/-- Every underscore stands between two other characters, of which there is at least one; `inside` tells
that such a character was right before the text. -/
def isSpaced (inside : Bool) : List Char → Bool
  | [] => inside
  | c :: cs => if c == '_' then inside && isSpaced false cs else isSpaced true cs

/-- Digits that a single underscore may stand between, without the underscores. -/
def digitRun (p : Char → Bool) : Reader (List Char) := do
  let cs ← Reader.takeWhile fun c => p c || c == '_'
  if isSpaced false cs then return cs.filter (· != '_') else failure

def sign : Reader Bool := do
  if ← Reader.optionalChar '-' then return true
  else
    let _ ← Reader.optionalChar '+'
    return false

/-- Digits of a decimal number, without a needless zero in front. -/
def decimalDigits : Reader (List Char) := do
  match ← Reader.peek with
  | some '0' => do
    Reader.char '0'
    return ['0']
  | _ => digitRun Char.isDigit

def power : Reader (Option (Bool × List Char)) := do
  match ← Reader.peek with
  | some 'e' | some 'E' => do
    let _ ← Reader.next
    let negative ← sign
    return some (negative, ← digitRun Char.isDigit)
  | _ => return none

def inRange (n : Int) : Reader TomlValue :=
  if TomlValue.minInteger ≤ n ∧ n ≤ TomlValue.maxInteger then return .integer n else failure

/-- A float that was written with digits. One too large to be finite is refused, unless it is
negative. -/
def floatOf (number : Scientific) : Reader TomlValue :=
  match number.toBinary BinaryFormat.double with
  | .infinity false => failure
  | x => return .float x

def decimalNumber : Reader TomlValue := do
  let negative ← sign
  let whole ← decimalDigits
  let fraction ← if ← Reader.optionalChar '.' then digitRun Char.isDigit else pure []
  match fraction, ← power with
  | [], none =>
    let n : Int := digitsValue whole
    inRange (if negative then -n else n)
  | fraction, p =>
    let (negativePower, power) := p.getD (false, [])
    let parts : DecimalParts := ⟨whole, fraction, negativePower, power⟩
    floatOf (parts.toScientific negative)

def baseNumber (base : Nat) (p : Char → Bool) : Reader TomlValue := do
  let _ ← Reader.exactly 2 fun _ => true
  let n ← valueInBase? base (← digitRun p)
  inRange n

/-- A float that is written as a word, its sign included. -/
def wordNumber : Reader TomlValue := do
  let negative ← sign
  if ← Reader.optionalText "inf".toList then return .float (.infinity negative)
  else
    Reader.text "nan".toList
    return .float .nan

def twoDigits (least most : Nat) : Reader Nat := do
  let n := digitsValue (← Reader.exactly 2 Char.isDigit)
  if least ≤ n ∧ n ≤ most then return n else failure

def daysIn (year month : Nat) : Nat :=
  if month = 2 then
    if (year % 4 = 0 ∧ year % 100 ≠ 0) ∨ year % 400 = 0 then 29 else 28
  else if month = 4 ∨ month = 6 ∨ month = 9 ∨ month = 11 then 30
  else 31

def timeOfDay : Reader Unit := do
  let _ ← twoDigits 0 23
  Reader.char ':'
  let _ ← twoDigits 0 59
  Reader.char ':'
  let _ ← twoDigits 0 60
  if ← Reader.optionalChar '.' then discard (Reader.takeWhile1 Char.isDigit)

/-- What is added to a time to say where it holds, if anything is. -/
def offset : Reader Unit := do
  match ← Reader.peek with
  | some 'Z' | some 'z' => discard Reader.next
  | some '+' | some '-' => do
    let _ ← Reader.next
    let _ ← twoDigits 0 23
    Reader.char ':'
    discard (twoDigits 0 59)
  | _ => return ()

def date : Reader Unit := do
  let year := digitsValue (← Reader.exactly 4 Char.isDigit)
  Reader.char '-'
  let month ← twoDigits 1 12
  Reader.char '-'
  discard (twoDigits 1 (daysIn year month))

/-- A time after a day, if there is one: the text goes on with a mark and two digits. -/
def timeAfterDate : Reader Unit := do
  match ← Reader.rest with
  | mark :: a :: b :: ':' :: _ =>
    if (mark == 'T' || mark == 't' || mark == ' ') && a.isDigit && b.isDigit then
      let _ ← Reader.next
      timeOfDay
      offset
  | _ => return ()

def datetime : Reader TomlValue := do
  match ← Reader.rest with
  | _ :: _ :: ':' :: _ => timeOfDay
  | _ => do
    date
    timeAfterDate
  return .datetime

def startsDatetime (cs : List Char) : Bool :=
  match cs with
  | a :: b :: c :: d :: e :: _ =>
    a.isDigit && b.isDigit && (c == ':' || (c.isDigit && d.isDigit && e == '-'))
  | a :: b :: ':' :: _ => a.isDigit && b.isDigit
  | _ => false

def number : Reader TomlValue := do
  let cs ← Reader.rest
  if startsDatetime cs then datetime
  else
    match cs with
    | '0' :: 'x' :: _ => baseNumber 16 isHexDigit
    | '0' :: 'o' :: _ => baseNumber 8 fun c => (valueInBase? 8 [c]).isSome
    | '0' :: 'b' :: _ => baseNumber 2 fun c => (valueInBase? 2 [c]).isSome
    | '+' :: c :: _ => if c.isDigit then decimalNumber else wordNumber
    | '-' :: c :: _ => if c.isDigit then decimalNumber else wordNumber
    | _ => decimalNumber

end Toml

end Sightline
