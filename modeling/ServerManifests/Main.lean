import ServerManifests.CommandLine.Outcome

/-!
The program: it runs the command that its arguments give on the system's own
files and prints the outcome.
-/
namespace ServerManifests.Program

open CommandLine

/-- The system's reason and number where an error has them. -/
def problemOf : IO.Error → FileProblem
  | .alreadyExists _ code reason | .inappropriateType _ code reason
  | .illegalOperation code reason | .interrupted _ code reason | .invalidArgument _ code reason
  | .noFileOrDirectory _ code reason | .noSuchThing _ code reason
  | .otherError code reason | .permissionDenied _ code reason | .resourceBusy code reason
  | .resourceExhausted _ code reason | .unsatisfiedConstraints code reason =>
    .refused reason code.toNat
  | error => .refused (toString error) 5

/-- Does something with a file, or gives the problem. -/
def attempt {α : Type} (action : IO α) : ExceptT FileProblem IO α := do
  match ← action.toBaseIO with
  | .ok result => return result
  | .error error => throw (problemOf error)

/-- Only a directory holds itself under the name of a dot. -/
def isDirectory (path : String) : IO Bool := do
  match ← (IO.FS.realPath (path ++ "/.")).toBaseIO with
  | .ok _ => return true
  | .error _ => return false

def system : FileSystem IO where
  readText path := do
    let bytes ← attempt (IO.FS.withFile path .read (·.readBinToEnd))
    match String.fromUTF8? bytes with
    | some text => return text
    | none => throw .notText
  makeDirectory path := attempt (IO.FS.createDir path)
  isDirectory
  writeText path content := attempt (IO.FS.writeFile path content)

def present (outcome : Outcome) : IO UInt32 := do
  IO.print outcome.output
  IO.eprint outcome.messages
  return outcome.exitCode.toUInt32

end ServerManifests.Program

open ServerManifests ServerManifests.CommandLine in
def main (arguments : List String) : IO UInt32 := do
  let names := logVariable :: [Parameter.releaseName, .targetNamespace].filterMap (·.variableName?)
  let found ← names.mapM fun name => return (name, ← IO.getEnv name)
  match Command.parse (fun name => (found.lookup name).join) arguments with
  | .error noCommand => Program.present noCommand.outcome
  | .ok command => do Program.present (← command.run Program.system)
