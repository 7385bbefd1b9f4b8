/-!
# Readers

A reader takes characters off the front of a text, or fails. What it leaves is read by the next one.
-/

namespace Sightline

/-- A reader of values from the front of a text. -/
abbrev Reader (β : Type) := StateT (List Char) Option β

namespace Reader

/-- The next character, which is left where it is; none at the end. -/
def peek : Reader (Option Char) := fun cs => some (cs.head?, cs)

/-- All that is left, which is left where it is. -/
def rest : Reader (List Char) := fun cs => some (cs, cs)

def next : Reader Char
  | [] => none
  | c :: cs => some (c, cs)

def satisfy (p : Char → Bool) : Reader Char
  | [] => none
  | c :: cs => if p c then some (c, cs) else none

def char (c : Char) : Reader Unit := fun cs => (satisfy (· == c) cs).map fun (_, cs) => ((), cs)

/-- Take a given character if it is next; tell whether it was. -/
def optionalChar (c : Char) : Reader Bool := fun cs =>
  match cs with
  | d :: rest => if d == c then some (true, rest) else some (false, cs)
  | [] => some (false, [])

def optionalText (text : List Char) : Reader Bool := fun cs =>
  if text.isPrefixOf cs then some (true, cs.drop text.length) else some (false, cs)

def text (text : List Char) : Reader Unit := fun cs =>
  if text.isPrefixOf cs then some ((), cs.drop text.length) else none

def takeWhile (p : Char → Bool) : Reader (List Char) := fun cs =>
  some (cs.takeWhile p, cs.dropWhile p)

def takeWhile1 (p : Char → Bool) : Reader (List Char) := fun cs =>
  if (cs.takeWhile p).isEmpty then none else some (cs.takeWhile p, cs.dropWhile p)

def exactly (n : Nat) (p : Char → Bool) : Reader (List Char) := fun cs =>
  if (cs.take n).length = n ∧ (cs.take n).all p then some (cs.take n, cs.drop n) else none

/-- Read a whole text. -/
def run? {β : Type} (r : Reader β) (text : List Char) : Option β :=
  match r text with
  | some (b, []) => some b
  | _ => none

end Reader

def hexValue? (c : Char) : Option Nat :=
  if '0' ≤ c ∧ c ≤ '9' then some (c.toNat - '0'.toNat)
  else if 'a' ≤ c ∧ c ≤ 'f' then some (c.toNat - 'a'.toNat + 10)
  else if 'A' ≤ c ∧ c ≤ 'F' then some (c.toNat - 'A'.toNat + 10)
  else none

def isHexDigit (c : Char) : Bool := (hexValue? c).isSome

/-- The value of digits in a base, most significant first; none if a character is no digit of that
base. -/
def valueInBase? (base : Nat) (cs : List Char) : Option Nat :=
  cs.foldlM (fun n c => do
    let d ← hexValue? c
    if d < base then some (base * n + d) else none) 0

def charOfNat? (n : Nat) : Option Char :=
  if n.isValidChar then some (Char.ofNat n) else none

end Sightline
