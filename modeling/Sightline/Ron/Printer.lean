/-!
# Writing RON

A record takes a line for each of its fields, four blanks deeper than the record; a tuple stays on
its line.
-/

namespace Sightline

inductive RonValue where
  /-- A number, a truth value or a word, as it is spelled. -/
  | word (text : String)
  | tuple (items : List String)
  | record (fields : List (String × RonValue))

namespace Ron

def indent (level : Nat) : String := String.ofList (List.replicate (4 * level) ' ')

mutual
/-- A value as text, on a line that is indented `level` times. -/
def valueText (level : Nat) : RonValue → String
  | .word text => text
  | .tuple items => "(" ++ ", ".intercalate items ++ ")"
  | .record fields => "(\n" ++ fieldsText (level + 1) fields ++ indent level ++ ")"

def fieldsText (level : Nat) : List (String × RonValue) → String
  | [] => ""
  | (key, value) :: rest =>
    indent level ++ key ++ ": " ++ valueText level value ++ ",\n" ++ fieldsText level rest
end

end Ron

end Sightline
