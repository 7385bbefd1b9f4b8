import Sightline.Files.Path

/-!
# Files in directories

A tree of files is seen from one directory. Paths may lead out of it: the directories above it are
there, and nothing is known to be in them but what is put there.
-/

namespace Sightline

inductive FileFault where
  /-- There is no such file, or no directory to put it in. -/
  | notFound
  | isDirectory
  | notDirectory
  | longName
  | invalidPath
  | invalidText
deriving DecidableEq, Repr

/-- A directory that locations are counted from. -/
inductive Anchor where
  /-- The directory so many levels above the one a tree is seen from. -/
  | above (levels : Nat)
  | root
deriving DecidableEq, Repr

/-- A place where a file or directory may stand. -/
structure Location where
  anchor : Anchor
  names : List String
deriving DecidableEq, Repr

namespace Location

def start (path : FilePath) : Location :=
  ⟨if path.isAbsolute then .root else .above 0, []⟩

/-- The directory above; there is none above the root. -/
def parent (l : Location) : Location :=
  match l.anchor, l.names with
  | .above levels, [] => ⟨.above (levels + 1), []⟩
  | anchor, names => ⟨anchor, names.dropLast⟩

def after (l : Location) : PathStep → Location
  | .stay => l
  | .up => l.parent
  | .down name => ⟨l.anchor, l.names ++ [name]⟩

end Location

inductive FileEntry where
  | directory
  | file (contents : ByteArray)

/-- A directory with what can be reached from it. -/
structure FileTree where
  entries : List (Location × FileEntry)

namespace FileTree

def empty : FileTree := ⟨[]⟩

def entry? (t : FileTree) (l : Location) : Option FileEntry :=
  if l.names.isEmpty then some .directory else t.entries.lookup l

/-- Let an entry stand at a location, in place of what stood there. -/
def put (t : FileTree) (l : Location) (entry : FileEntry) : FileTree :=
  ⟨(l, entry) :: t.entries.filter (·.1 ≠ l)⟩

def maxNameLength : Nat := 255

def find (t : FileTree) (l : Location) : Except FileFault (Option FileEntry) :=
  if l.names.getLast?.any (maxNameLength < ·.utf8ByteSize) then .error .longName
  else .ok (t.entry? l)

/-- Take a step. It can be taken from a directory only, and may lead to where nothing stands. -/
def step (t : FileTree) (l : Location) (s : PathStep) : Except FileFault Location := do
  match ← t.find l with
  | some .directory => return l.after s
  | some (.file _) => throw .notDirectory
  | none => throw .notFound

/-- Where a path leads. Something has to stand at every place on the way, but not at its end. -/
def locate (t : FileTree) (path : FilePath) : Except FileFault Location :=
  if path.isValid then path.steps.foldlM t.step (Location.start path) else .error .invalidPath

def read (t : FileTree) (path : FilePath) : Except FileFault ByteArray := do
  match ← t.find (← t.locate path) with
  | some (.file contents) => if path.endsWithSlash then throw .notDirectory else return contents
  | some .directory => throw .isDirectory
  | none => throw .notFound

def readText (t : FileTree) (path : FilePath) : Except FileFault String := do
  match String.fromUTF8? (← t.read path) with
  | some text => return text
  | none => throw .invalidText

/-- Let a file hold something, and nothing of what it held before. A path with a slash at its end
stands for a directory, whether there is one or not. -/
def write (t : FileTree) (path : FilePath) (contents : ByteArray) : Except FileFault FileTree := do
  let l ← t.locate path
  if path.endsWithSlash then throw .isDirectory
  match ← t.find l with
  | some .directory => throw .isDirectory
  | _ => return t.put l (.file contents)

/-- Make the directories that are missing on the way from a location. Where none can be made,
nothing is made behind it. -/
def makeSteps (t : FileTree) (l : Location) : List PathStep → FileTree
  | [] => t
  | s :: steps =>
    match t.find (l.after s) with
    | .ok (some .directory) => t.makeSteps (l.after s) steps
    | .ok none => (t.put (l.after s) .directory).makeSteps (l.after s) steps
    | _ => t

def makeDirectory (t : FileTree) (path : FilePath) : FileTree :=
  if path.isValid then t.makeSteps (Location.start path) path.steps else t

end FileTree

end Sightline
