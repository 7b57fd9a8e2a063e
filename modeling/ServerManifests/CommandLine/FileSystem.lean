import ServerManifests.Failure

/-!
What a command asks of a system about files, whatever the system is. A directory
is made by trying the whole path first and, only where something is missing, the
directories it lies in.
-/
namespace ServerManifests.CommandLine

structure FileSystem (m : Type → Type) where
  readText (path : String) : ExceptT FileProblem m String
  /-- Makes one directory in a directory that is there. -/
  makeDirectory (path : String) : ExceptT FileProblem m Unit
  isDirectory (path : String) : m Bool
  writeText (path content : String) : ExceptT FileProblem m Unit

/-- What stands between the slashes of a path. -/
def segments (path : String) : List String := (path.toList.splitOn '/').map String.ofList

/-- The names on a path; empty names and single dots stand for the directory
they are in. -/
def namesOn (path : String) : List String :=
  (segments path).filter fun name => name ≠ "" && name ≠ "."

/-- The path as it is and the directories it lies in, the innermost first. -/
def pathsUpward (path : String) : List String :=
  let names := namesOn path
  let start := if path.startsWith "/" then "/" else ""
  let outer := (List.range names.length).drop 1 |>.reverse.map fun count =>
    start ++ "/".intercalate (names.take count)
  path :: outer

/-- The path of a file in a directory. -/
def pathIn (directory name : String) : String :=
  if directory.endsWith "/" then directory ++ name else directory ++ "/" ++ name

namespace FileSystem

variable {m : Type → Type} [Monad m] (system : FileSystem m)

/-- A directory that is there need not be made. -/
def ensureDirectory (path : String) : ExceptT FileProblem m Unit :=
  tryCatch (system.makeDirectory path) fun problem => do
    if ← system.isDirectory path then return () else throw problem

def ensureFirst : (paths : List String) → ExceptT FileProblem m Unit
  | [] => return ()
  | path :: outer =>
    tryCatch (system.ensureDirectory path) fun problem => do
      if problem.isMissing then
        ensureFirst outer
        system.ensureDirectory path
      else throw problem

def makeDirectories (path : String) : ExceptT FileProblem m Unit :=
  system.ensureFirst (pathsUpward path)

end FileSystem

end ServerManifests.CommandLine
