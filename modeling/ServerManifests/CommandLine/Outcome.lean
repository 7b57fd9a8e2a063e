import ServerManifests.CommandLine.Arguments
import ServerManifests.CommandLine.FileSystem
import ServerManifests.Json.Printer
import ServerManifests.Render

/-!
What a command prints, and what it does with files on the way. A command that
fails prints its failure and nothing else; only what is wrong with a place for
the files can stop it after it has begun to write.
-/
namespace ServerManifests.CommandLine

structure Outcome where
  exitCode : Nat := 0
  output : String := ""
  messages : String := ""
  deriving DecidableEq, Repr

namespace Outcome

def ofFailure (failure : Failure) : Outcome where
  exitCode := failure.exitCode
  messages := "Error: " ++ failure.message ++ "\n"

def ofResult : Except Failure Outcome → Outcome
  | .ok outcome => outcome
  | .error failure => ofFailure failure

end Outcome

/-- What the inputs render, given the texts of their values files. -/
def Inputs.render (inputs : Inputs) (texts : List (Except FileProblem String)) :
    Except Failure Rendered := do
  let config ← Configuration.load texts inputs.overrides
  ServerManifests.render config inputs.release

section

variable {m : Type → Type} [Monad m] (system : FileSystem m)

def Inputs.load (inputs : Inputs) : ExceptT Failure m Rendered := do
  let texts ← inputs.values.mapM fun path => (system.readText path).run
  ofExcept (inputs.render texts)

/-- Writes one file for each document, in a directory. -/
def writeBundle (directory : String) (bundle : Bundle) : ExceptT FileProblem m Unit := do
  system.makeDirectories directory
  bundle.documents.forM fun document =>
    system.writeText (pathIn directory document.kind.fileName) document.content

namespace Command

def attempt : Command → ExceptT Failure m Outcome
  | .render inputs none => do
    let rendered ← inputs.load system
    return { output := rendered.bundle.stream, messages := rendered.access.text }
  | .render inputs (some directory) => do
    let rendered ← inputs.load system
    (writeBundle system directory rendered.bundle).adapt Failure.file
    return { messages := rendered.access.text }
  | .notes inputs => do
    let rendered ← inputs.load system
    return { output := rendered.access.text }
  | .schema => return { output := Configuration.schema.print ++ "\n" }

def run (command : Command) : m Outcome := Outcome.ofResult <$> (command.attempt system).run

end Command

end

def programName : String := "zenml-manifests"

def programVersion : String := "0.1.0"

/-- The words of each command, one command a line. -/
def usage : String :=
  let inputs := "[-f FILE]... [--set PATH=VALUE]... [--release-name NAME] [-n NAMESPACE]" ++
    " [--app-version VERSION]"
  let line (words : String) := "  " ++ programName ++ " [--log-json] " ++ words ++ "\n"
  "Usage:\n" ++ line ("render " ++ inputs ++ " [-o DIRECTORY]") ++ line ("notes " ++ inputs) ++
    line "schema"

def NoCommand.outcome : NoCommand → Outcome
  | .misuse => { exitCode := 2, messages := "The arguments give no command.\n\n" ++ usage }
  | .help => { output := usage }
  | .version => { output := programName ++ " " ++ programVersion ++ "\n" }

end ServerManifests.CommandLine
