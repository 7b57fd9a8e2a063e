import ServerManifests.Codec.Error
import ServerManifests.Environment.Source
import ServerManifests.Plan.Violation
import ServerManifests.Values.Override

/-!
Why nothing is rendered. All but the failures of files are faults of the
configuration, and the exit code tells the two apart.
-/
namespace ServerManifests

inductive FileProblem where
  | notText
  /-- The system's own reason and number. -/
  | refused (reason : String) (code : Nat)
  deriving DecidableEq, Repr

namespace FileProblem

def missing : FileProblem := .refused "No such file or directory" 2

def occupied : FileProblem := .refused "File exists" 17

def notDirectory : FileProblem := .refused "Not a directory" 20

def isDirectory : FileProblem := .refused "Is a directory" 21

def nameTooLong : FileProblem := .refused "File name too long" 36

def isMissing : FileProblem → Bool
  | .refused _ code => code = 2
  | .notText => false

def message : FileProblem → String
  | .notText => "stream did not contain valid UTF-8"
  | .refused reason code => reason ++ " (os error " ++ toString code ++ ")"

end FileProblem

inductive Failure where
  | missingField (field : String)
  | invalid (violation : Plan.Violation)
  | malformedSource (source : Environment.Source) (problem : Environment.SourceProblem)
  | invalidOverride (expression : String) (error : Values.OverrideError)
  /-- The text is no single YAML document. -/
  | noDocument
  | unreadable (error : ReadError)
  | file (problem : FileProblem)

namespace Failure

def message : Failure → String
  | .missingField field => "Missing required field: " ++ field
  | .invalid violation => "Validation error: " ++ violation.field ++ ": " ++ violation.reason
  | .malformedSource source problem =>
    "Malformed environment source '" ++ source.label ++ "': " ++ problem.message
  | .invalidOverride expression error =>
    "Invalid override '" ++ expression ++ "': " ++ error.message
  | .noDocument => "Failed to parse values: not a YAML document"
  | .unreadable error => "Failed to parse values: " ++ error.message
  | .file problem => "IO error: " ++ problem.message

def isConfigurationError : Failure → Bool
  | .file _ => false
  | _ => true

def exitCode (failure : Failure) : Nat := if failure.isConfigurationError then 2 else 1

end Failure

/-- Goes on if a condition holds. -/
def require (condition : Bool) (failure : Failure) : Except Failure Unit :=
  if condition then .ok () else .error failure

end ServerManifests
