import ServerManifests.CommandLine.FileSystem

/-!
A system of files held in memory. A path is walked name by name, each in a
directory: a single dot stays there, two dots lead out of it, and the root lies
in itself. Names and paths are limited in bytes.
-/
namespace ServerManifests.CommandLine

/-- What stands at a place; a file of bytes that are no text has none. -/
inductive FileEntry where
  | directory
  | file (text : Option String)
  deriving DecidableEq, Repr

/-- The names on the way to a place from the root. -/
abbrev FilePlace := List String

structure FileTree where
  entries : List (FilePlace × FileEntry)
  /-- Where relative paths begin. -/
  home : FilePlace

namespace FileTree

def maxNameBytes : Nat := 255

def maxPathBytes : Nat := 4095

variable (tree : FileTree)

/-- The directories around an entry have no entries of their own. -/
def entry? (place : FilePlace) : Option FileEntry :=
  match tree.entries.lookup place with
  | some entry => some entry
  | none =>
    if (tree.home :: tree.entries.map (·.1)).any fun inner => place.isPrefixOf inner then
      some .directory
    else none

def isDirectory (place : FilePlace) : Bool := tree.entry? place = some .directory

def start (path : String) : Except FileProblem FilePlace :=
  if maxPathBytes < path.utf8ByteSize then .error .nameTooLong
  else .ok (if path.startsWith "/" then [] else tree.home)

/-- The place of a name in a directory, whether something stands there or not. -/
def child (place : FilePlace) (name : String) : Except FileProblem FilePlace :=
  if !tree.isDirectory place then .error .notDirectory
  else if name = "" || name = "." then .ok place
  else if name = ".." then .ok place.dropLast
  else if maxNameBytes < name.utf8ByteSize then .error .nameTooLong
  else .ok (place ++ [name])

def step (place : FilePlace) (name : String) : Except FileProblem FilePlace := do
  let next ← tree.child place name
  if (tree.entry? next).isSome then return next else throw .missing

/-- The place that a path leads to. -/
def locate (path : String) : Except FileProblem FilePlace := do
  (segments path).foldlM tree.step (← tree.start path)

/-- The place where a path would put something new. Dots at its end, like the
root, lead to a directory that is there. -/
def locateNew (path : String) : Except FileProblem FilePlace := do
  let names := (segments path).filter (· ≠ "")
  let parent ← names.dropLast.foldlM tree.step (← tree.start path)
  tree.child parent (names.getLast?.getD "")

def put (place : FilePlace) (entry : FileEntry) : FileTree :=
  { tree with entries := (place, entry) :: tree.entries.filter (·.1 ≠ place) }

def readText (path : String) : Except FileProblem String := do
  match tree.entry? (← tree.locate path) with
  | some (.file (some text)) => return text
  | some (.file none) => throw .notText
  | some .directory => throw .isDirectory
  | none => throw .missing

def makeDirectory (path : String) : Except FileProblem FileTree := do
  let place ← tree.locateNew path
  if (tree.entry? place).isSome then throw .occupied else return tree.put place .directory

def writeText (path content : String) : Except FileProblem FileTree := do
  let place ← tree.locateNew path
  if tree.isDirectory place then throw .isDirectory
  else return tree.put place (.file (some content))

/-- The text files that lie in a directory itself, by their names. -/
def textsIn (path : String) : List (String × String) :=
  match tree.locate path with
  | .error _ => []
  | .ok place => tree.entries.filterMap fun
    | (inner, .file (some text)) =>
      if inner.dropLast = place then inner.getLast?.map (·, text) else none
    | _ => none

/-- Keeps the tree that a change gives. -/
def change (next : FileTree → Except FileProblem FileTree) :
    ExceptT FileProblem (StateM FileTree) Unit := do
  set (← ofExcept (next (← get)))

def system : FileSystem (StateM FileTree) where
  readText path := do ofExcept ((← get).readText path)
  makeDirectory path := change fun tree => tree.makeDirectory path
  isDirectory path := do
    let tree ← get
    return match tree.locate path with
      | .ok place => tree.isDirectory place
      | .error _ => false
  writeText path content := change fun tree => tree.writeText path content

end FileTree

end ServerManifests.CommandLine
