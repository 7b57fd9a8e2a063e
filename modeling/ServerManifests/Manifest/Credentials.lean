import ServerManifests.Manifest.Metadata
import ServerManifests.Sha256
import ServerManifests.Yaml.Printer

/-!
The secret with the server's credentials. The container imports all of it, and
the checksum of its text tells whether it changed.
-/
namespace ServerManifests.Manifest

structure Secret where
  metadata : Metadata
  data : TextMap String

namespace Secret

/-- Sets a key to a value that is given. -/
def withGiven (data : TextMap String) (key : String) (value : Option String) : TextMap String :=
  match value with
  | some value => data.insert key value
  | none => data

/-- The credentials of an external database count only where it is in use. -/
def credentials (config : Configuration) : TextMap String :=
  let database := config.database
  let data : TextMap String :=
    if database.isManaged then
      withGiven (withGiven (withGiven {} "ZENML_STORE_URL" database.url)
        "ZENML_STORE_PASSWORD" database.password) "ZENML_STORE_SSL_CA" database.sslCa
    else {}
  withGiven data "ZENML_SERVER_JWT_SECRET_KEY" config.jwtSecretKey

def of (plan : DeploymentPlan) : Secret :=
  ⟨.of plan plan.names.fullname, credentials plan.config⟩

def toJson (secret : Secret) : Json :=
  manifestJson "v1" "Secret" secret.metadata
    [("stringData", secret.data.unlessEmpty), ("type", some (.text "Opaque"))]

def checksum (secret : Secret) : String :=
  Sha256.hexDigest (Yaml.Printer.print secret.toJson)

end Secret

end ServerManifests.Manifest
