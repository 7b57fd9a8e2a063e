import ServerManifests.Environment.Flags
import ServerManifests.Failure

/-!
The environment of the server container. Five sources are put together in order
of precedence: a later one changes the value of a name that is there already and
adds the names that are not.
-/
namespace ServerManifests.Environment

open ServerManifests.Configuration

/-- Tuning of an external database. -/
def databaseEntries (database : Database) : List Entry :=
  if database.isManaged then
    CoreFlags.given "ZENML_STORE_POOL_SIZE" (database.poolSize.map fun n => toString n.toNat) ++
    CoreFlags.given "ZENML_STORE_MAX_OVERFLOW" (database.maxOverflow.map fun n => toString n.toNat) ++
    CoreFlags.given "ZENML_STORE_BACKUP_STRATEGY" (database.backupStrategy.map BackupStrategy.label) ++
    CoreFlags.given "ZENML_STORE_BACKUP_DATABASE" database.backupDatabase
  else []

/-- The text of a setting, which must be a scalar. -/
def settingText (name : String) (setting : Json) : Except SourceProblem String :=
  match setting with
  | .text s => .ok s
  | .bool b => .ok (flagText b)
  | .int n => .ok (toString n)
  | .float x => .ok (Json.floatText x)
  | .null => .error (.noValue name)
  | .list _ => .error (.notScalar name)
  | .object _ => .error (.notScalar name)

def settingEntries (settings : TextMap Setting) : Except SourceProblem (List Entry) :=
  settings.entries.mapM fun (name, setting) =>
    (settingText name setting.json).map (⟨name, ·⟩)

def storeEntries (start : String) (store : SecretsStore) : Except SourceProblem (List Entry) := do
  let settings ← settingEntries store.settings
  return ⟨start ++ "TYPE", store.backend.label⟩ ::
    (CoreFlags.given (start ++ "AUTH_METHOD") store.authMethod ++
      CoreFlags.given (start ++ "CLASS_PATH") store.classPath ++ settings)

/-- Names consist of visible ASCII characters without the equals sign. -/
def isNameChar (c : Char) : Bool := '!' ≤ c && c ≤ '~' && c ≠ '='

def checkName (entry : Entry) : Except SourceProblem Unit :=
  if entry.name.isEmpty then .error .emptyName
  else match entry.name.toList.find? (!isNameChar ·) with
    | some c => .error (.invalidCharacter c entry.name)
    | none => .ok ()

namespace Source

/-- What a source contributes. A primary secrets store that is off says so. -/
def contribution (config : Configuration) : Source → Except SourceProblem (List Entry)
  | .core => .ok (CoreFlags.ofConfiguration config).entries
  | .database => .ok (databaseEntries config.database)
  | .secretsStore =>
    if config.secretsStore.enabled then storeEntries "ZENML_SECRETS_STORE_" config.secretsStore
    else .ok [⟨"ZENML_SECRETS_STORE_TYPE", "none"⟩]
  | .backupSecretsStore =>
    if config.backupSecretsStore.enabled then
      storeEntries "ZENML_BACKUP_SECRETS_STORE_" config.backupSecretsStore
    else .ok []
  | .user => .ok (config.environment.entries.map fun (name, value) => ⟨name, value⟩)

/-- The contribution of a source, if all its names can be used. -/
def entries (config : Configuration) (source : Source) : Except Failure (List Entry) :=
  Except.mapError (.malformedSource source) do
    let entries ← source.contribution config
    entries.forM checkName
    return entries

end Source

def compose (config : Configuration) : Except Failure EnvironmentList :=
  Source.precedence.foldlM
    (fun (env : EnvironmentList) source => (source.entries config).map env.setAll)
    .empty

end ServerManifests.Environment
