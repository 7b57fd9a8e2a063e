import ServerManifests.Proofs.Render.References
import ServerManifests.Proofs.TextMap

/-!
The data of the secret, key by key. A key holds the credential it stands for, if that is
given; the keys of the database hold nothing where no external database is in use.
-/
namespace ServerManifests.Manifest.Secret

open ServerManifests.Configuration (Database)

/-- The path to a credential in the secret. -/
def credentialPath (key : String) : List Json.Step := ["stringData", .member key]

/-- The credential of a database that a key stands for. -/
def databaseCredential (database : Database) (key : String) : Option String :=
  if key = "ZENML_STORE_URL" then database.url
  else if key = "ZENML_STORE_PASSWORD" then database.password
  else if key = "ZENML_STORE_SSL_CA" then database.sslCa
  else none

theorem get?_withGiven (data : TextMap String) (key key' : String) (value : Option String) :
    (withGiven data key value).get? key' =
      if key' = key then value.or (data.get? key') else data.get? key' := by
  cases value with
  | none => simp [withGiven]
  | some value => simp [withGiven, TextMap.get?_insert]

theorem get?_databaseCredentials (database : Database) (key : String) :
    (withGiven (withGiven (withGiven {} "ZENML_STORE_URL" database.url)
      "ZENML_STORE_PASSWORD" database.password) "ZENML_STORE_SSL_CA" database.sslCa).get? key =
      databaseCredential database key := by
  have hempty (key : String) : TextMap.get? (∅ : TextMap String) key = none := rfl
  unfold databaseCredential
  by_cases hurl : key = "ZENML_STORE_URL"
  · simp [get?_withGiven, hurl, hempty]
  · by_cases hpassword : key = "ZENML_STORE_PASSWORD"
    · simp [get?_withGiven, hpassword, hempty]
    · simp [get?_withGiven, hurl, hpassword, hempty]

theorem get?_credentials (config : Configuration) (key : String) :
    (credentials config).get? key =
      if key = "ZENML_SERVER_JWT_SECRET_KEY" then config.jwtSecretKey
      else if config.database.isManaged then databaseCredential config.database key
      else none := by
  have hdatabase : TextMap.get? (if config.database.isManaged then
      withGiven (withGiven (withGiven {} "ZENML_STORE_URL" config.database.url)
        "ZENML_STORE_PASSWORD" config.database.password)
        "ZENML_STORE_SSL_CA" config.database.sslCa
      else {}) key =
      if config.database.isManaged then databaseCredential config.database key else none := by
    split
    · exact get?_databaseCredentials config.database key
    · rfl
  unfold credentials
  rw [get?_withGiven, hdatabase]
  split
  · next hkey =>
    have hother : databaseCredential config.database key = none := by
      simp [databaseCredential, hkey]
    rw [hother, ite_self, Option.or_none]
  · rfl

end ServerManifests.Manifest.Secret

namespace ServerManifests

open Manifest

theorem Bundle.at?_credential (bundle : Bundle) (key : String) :
    bundle.at? .secret (Secret.credentialPath key) =
      (bundle.secret.data.get? key).map .text := by
  rw [at?_secret]
  unfold Secret.toJson manifestJson Secret.credentialPath
  simp only [List.cons_append, List.nil_append]
  rw [Json.at?_ofGiven_later (by decide), Json.at?_ofGiven_later (by decide),
    Json.at?_ofGiven_later (by decide), Json.at?_ofGiven_first (by decide), Json.at?_unlessEmpty]

theorem at?_credential_of_plan (config : Configuration) (release : Release)
    (env : EnvironmentList) (key : String) :
    (Bundle.of (.ofEnvironment config release env)).at? .secret (Secret.credentialPath key) =
      ((Secret.credentials config).get? key).map .text :=
  Bundle.at?_credential _ key

end ServerManifests
