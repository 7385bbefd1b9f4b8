import Sightline.Toml.Lexical
import Sightline.Toml.Table

/-!
# Reading TOML

A text is read as version 1.0 of the format has it. The measure of a reader that calls itself is a
number of steps, which the length of the text bounds, and `depth` counts how deeply values nest.
-/

namespace Sightline

namespace Toml

mutual
def value : (steps depth : Nat) → Reader TomlValue
  | 0, _ => failure
  | steps + 1, depth => do
    match ← Reader.peek with
    | some '"' => return .string (← quoted '"' true)
    | some '\'' => return .string (← quoted '\'' false)
    | some '[' => do
      Reader.char '['
      if maxDepth ≤ depth + 1 then failure
      return .array (← items steps (depth + 1))
    | some '\x7b' => do
      Reader.char '\x7b'
      if maxDepth ≤ depth + 1 then failure
      blanks
      if ← Reader.optionalChar '\x7d' then return .table []
      else return .table (toTable (← pairs steps (depth + 1) []))
    | some 't' => do
      Reader.text "true".toList
      return .boolean true
    | some 'f' => do
      Reader.text "false".toList
      return .boolean false
    | some 'i' | some 'n' => wordNumber
    | some _ => number
    | none => failure

/-- The items of an array and its closing bracket. A comma may follow the last item. -/
def items : (steps depth : Nat) → Reader (List TomlValue)
  | 0, _ => failure
  | steps + 1, depth => do
    trivia
    if ← Reader.optionalChar ']' then return []
    let item ← value steps depth
    trivia
    if ← Reader.optionalChar ',' then return item :: (← items steps depth)
    else
      Reader.char ']'
      return [item]

/-- The keys and values of a table on one line and its closing brace, after some that were read
before. No comma follows the last one. -/
def pairs : (steps depth : Nat) → Entries → Reader Entries
  | 0, _, _ => failure
  | steps + 1, depth, entries => do
    let keys ← key
    Reader.char '='
    blanks
    let v ← value steps depth
    blanks
    let entries ← putValue keys v entries
    if ← Reader.optionalChar ',' then pairs steps depth entries
    else
      Reader.char '\x7d'
      return entries
end

structure Draft where
  entries : Entries
  /-- The table that the last header has opened. -/
  header : List String

def keyLine (steps : Nat) (draft : Draft) : Reader Draft := do
  let keys ← key
  Reader.char '='
  blanks
  let v ← value steps 0
  lineEnd
  return { draft with entries := ← putUnder draft.header keys v draft.entries }

def headerLine (draft : Draft) : Reader Draft := do
  if ← Reader.optionalText ['[', '['] then
    let keys ← key
    Reader.text [']', ']']
    lineEnd
    return { entries := ← openItem keys draft.entries, header := keys }
  else
    Reader.char '['
    let keys ← key
    Reader.char ']'
    lineEnd
    return { entries := ← openTable keys draft.entries, header := keys }

def lines : (steps : Nat) → Draft → Reader Draft
  | 0, _ => failure
  | steps + 1, draft => do
    blanks
    match ← Reader.peek with
    | none => return draft
    | some '#' | some '\n' | some '\r' => do
      lineEnd
      lines steps draft
    | some '[' => lines steps (← headerLine draft)
    | some _ => lines steps (← keyLine steps draft)

def parse? (text : String) : Option TomlTable :=
  let cs := text.toList
  -- every step but those between two brackets takes a character
  let steps := 4 * (cs.length + 1)
  (Reader.run? (lines steps ⟨[], []⟩) cs).map fun draft => toTable draft.entries

end Toml

end Sightline
