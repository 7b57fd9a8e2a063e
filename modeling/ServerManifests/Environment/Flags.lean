import ServerManifests.Configuration.Basic
import ServerManifests.Environment.List

/-!
The flags of the server that do not depend on a store. Each flag that may be
left out is decided here.
-/
namespace ServerManifests.Environment

open ServerManifests.Configuration

/-- How the server reads a boolean. -/
def flagText (value : Bool) : String := if value then "True" else "False"

structure CoreFlags where
  /-- Given only in debug mode. -/
  loggingVerbosity : Option String
  analyticsOptIn : Bool
  defaultProjectName : String
  defaultUsername : String
  authScheme : Option AuthScheme
  /-- Given only where it is on. -/
  enableImplicitAuthMethods : Option Bool
  serverUrl : Option String
  deploymentType : Option String
  /-- This and the rest are given only with an external database, whose tables
  are migrated by other means. -/
  storeType : Option String
  disableDatabaseMigration : Option Bool
  sslVerifyServerCert : Option Bool

namespace CoreFlags

def ofConfiguration (config : Configuration) : CoreFlags :=
  let managed := config.database.isManaged
  { loggingVerbosity := if config.debug then some "DEBUG" else none
    analyticsOptIn := config.analyticsOptIn
    defaultProjectName := config.defaultProjectName
    defaultUsername := config.defaultUsername
    authScheme := config.authScheme
    enableImplicitAuthMethods := if config.enableImplicitAuthMethods then some true else none
    serverUrl := config.serverUrl
    deploymentType := config.deploymentType
    storeType := if managed then some "sql" else none
    disableDatabaseMigration := if managed then some true else none
    sslVerifyServerCert :=
      if managed then some (config.database.sslVerifyServerCert.getD false) else none }

/-- An entry for a value that may be unset. -/
def given (name : String) (value : Option String) : List Entry :=
  value.toList.map (⟨name, ·⟩)

def entries (flags : CoreFlags) : List Entry :=
  given "ZENML_LOGGING_VERBOSITY" flags.loggingVerbosity ++
  [⟨"ZENML_ANALYTICS_OPT_IN", flagText flags.analyticsOptIn⟩,
    ⟨"ZENML_DEFAULT_PROJECT_NAME", flags.defaultProjectName⟩,
    ⟨"ZENML_DEFAULT_USER_NAME", flags.defaultUsername⟩] ++
  given "ZENML_AUTH_TYPE" (flags.authScheme.map AuthScheme.label) ++
  given "ZENML_ENABLE_IMPLICIT_AUTH_METHODS" (flags.enableImplicitAuthMethods.map flagText) ++
  given "ZENML_SERVER_URL" flags.serverUrl ++
  given "ZENML_SERVER_DEPLOYMENT_TYPE" flags.deploymentType ++
  given "ZENML_STORE_TYPE" flags.storeType ++
  given "DISABLE_DATABASE_MIGRATION" (flags.disableDatabaseMigration.map flagText) ++
  given "ZENML_STORE_SSL_VERIFY_SERVER_CERT" (flags.sslVerifyServerCert.map flagText)

end CoreFlags

end ServerManifests.Environment
