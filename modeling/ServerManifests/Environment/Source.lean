import ServerManifests.Text.Quoted

/-!
Where environment variables come from, and what makes a source unusable.
-/
namespace ServerManifests.Environment

inductive Source where
  | core
  | database
  | secretsStore
  | backupSecretsStore
  | user
  deriving DecidableEq, Repr

namespace Source

/-- Later sources win. -/
def precedence : List Source := [.core, .database, .secretsStore, .backupSecretsStore, .user]

def label : Source → String
  | .core => "core flags"
  | .database => "database"
  | .secretsStore => "secrets store"
  | .backupSecretsStore => "backup secrets store"
  | .user => "user environment"

end Source

inductive SourceProblem where
  | noValue (name : String)
  | notScalar (name : String)
  | emptyName
  | invalidCharacter (c : Char) (name : String)
  deriving DecidableEq, Repr

def SourceProblem.message : SourceProblem → String
  | .noValue name => "'" ++ name ++ "' has no value"
  | .notScalar name => "'" ++ name ++ "' must be a scalar"
  | .emptyName => "empty variable name"
  | .invalidCharacter c name => "invalid character " ++ Text.quoteChar c ++ " in '" ++ name ++ "'"

end ServerManifests.Environment
