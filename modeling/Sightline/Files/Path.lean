/-!
# Paths of files

A path is a way through directories, one step after the other. In its text the steps are set apart
by slashes.
-/

namespace Sightline

/-- A step of a path, from a directory. -/
inductive PathStep where
  | stay
  | up
  | down (name : String)
deriving DecidableEq, Repr

structure FilePath where
  isAbsolute : Bool
  steps : List PathStep
  /-- A slash follows the last step, so the way has to end at a directory. -/
  endsWithSlash : Bool
deriving DecidableEq, Repr

namespace FilePath

/-- The step that stands between two slashes. Nothing stands there if it is empty. -/
def stepOf? (part : String) : Option PathStep :=
  if part = "" then none
  else if part = "." then some .stay
  else if part = ".." then some .up
  else some (.down part)

def ofText (text : String) : FilePath where
  isAbsolute := text.toList.head? == some '/'
  steps := (text.splitOn "/").filterMap stepOf?
  endsWithSlash := text.toList.getLast? == some '/'

/-- A path may be used if none of its names holds the character that ends texts. -/
def isValid (path : FilePath) : Bool :=
  path.steps.all fun
    | .down name => !name.toList.contains '\x00'
    | _ => true

/-- The name at the end of a path. Steps that stay where they are do not count. -/
def name? (path : FilePath) : Option String :=
  match (path.steps.filter (· ≠ .stay)).getLast? with
  | some (.down name) => some name
  | _ => none

/-- The extension of a name: what follows its last point, unless it starts with that point. -/
def extensionOf? (name : String) : Option String :=
  let cs := name.toList.reverse
  match cs.dropWhile (· != '.') with
  | [] | [_] => none
  | _ => some (String.ofList (cs.takeWhile (· != '.')).reverse)

def extension? (path : FilePath) : Option String := path.name?.bind extensionOf?

end FilePath

end Sightline
