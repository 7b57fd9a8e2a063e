import ServerManifests.Proofs.Environment.Composition
import ServerManifests.Proofs.Manifest.Credentials

/-!
The url of the database as the one switch between two modes of deployment. With a url
that is not blank, an external database is described in full; without one, nothing of it
is left and the server runs as a single replica.
-/
namespace ServerManifests

open Environment Manifest
open ServerManifests.Configuration (Database BackupStrategy)

namespace Environment

/-- The core flags that only an external database has. -/
def storeFlags (database : Database) : List Entry :=
  [⟨"ZENML_STORE_TYPE", "sql"⟩, ⟨"DISABLE_DATABASE_MIGRATION", "True"⟩,
    ⟨"ZENML_STORE_SSL_VERIFY_SERVER_CERT", flagText (database.sslVerifyServerCert.getD false)⟩]

/-- The value of the tuning variable of a name, if it is set. -/
def tuning (database : Database) (name : String) : Option String :=
  if name = "ZENML_STORE_POOL_SIZE" then database.poolSize.map fun n => toString n.toNat
  else if name = "ZENML_STORE_MAX_OVERFLOW" then database.maxOverflow.map fun n => toString n.toNat
  else if name = "ZENML_STORE_BACKUP_STRATEGY" then
    database.backupStrategy.map BackupStrategy.label
  else if name = "ZENML_STORE_BACKUP_DATABASE" then database.backupDatabase
  else none

/-- Names that are about an external database. -/
def IsStoreName (name : String) : Prop :=
  name = "DISABLE_DATABASE_MIGRATION" ∨ "ZENML_STORE_".toList <+: name.toList

instance (name : String) : Decidable (IsStoreName name) := inferInstanceAs (Decidable (_ ∨ _))

end Environment

/-- How an external database shows. -/
structure Bundle.WithDatabase (database : Database) (url : String) (core tuned : List Entry)
    (bundle : Bundle) : Prop where
  flags : ∀ flag ∈ storeFlags database, core.filter (·.name = flag.name) = [flag]
  tuned : ∀ name, tuned.filter (·.name = name) = (tuning database name).toList.map (⟨name, ·⟩)
  url : bundle.at? .secret (Secret.credentialPath "ZENML_STORE_URL") = some (.text url)
  password : bundle.at? .secret (Secret.credentialPath "ZENML_STORE_PASSWORD") =
    database.password.map .text
  sslCa : bundle.at? .secret (Secret.credentialPath "ZENML_STORE_SSL_CA") =
    database.sslCa.map .text

/-- What there is without an external database. -/
structure Bundle.WithoutDatabase (core tuned : List Entry) (bundle : Bundle) : Prop where
  environment : ∀ entry ∈ core ++ tuned, ¬ IsStoreName entry.name
  credentials : ∀ key, IsStoreName key → bundle.at? .secret (Secret.credentialPath key) = none
  replicas : bundle.at? .deployment ["spec", "replicas"] = some (.int 1)
  autoscaler : .autoscaler ∉ bundle.documents.map (·.kind)

namespace Environment

theorem filter_given (name name' : String) (value : Option String) :
    (CoreFlags.given name value).filter (·.name = name') =
      if name' = name then CoreFlags.given name value else [] := by
  cases value with
  | none => simp [CoreFlags.given]
  | some value =>
    by_cases hname : name' = name
    · simp [CoreFlags.given, hname]
    · simp [CoreFlags.given, hname, Ne.symm hname]

theorem filter_core_of_mem_storeFlags {config : Configuration}
    (hmanaged : config.database.isManaged = true) :
    ∀ flag ∈ storeFlags config.database,
      (CoreFlags.ofConfiguration config).entries.filter (·.name = flag.name) = [flag] := by
  have hgiven (name value : String) : CoreFlags.given name (some value) = [⟨name, value⟩] := rfl
  unfold CoreFlags.entries CoreFlags.ofConfiguration
  simp [storeFlags, filter_given, hmanaged, hgiven, flagText]

theorem filter_databaseEntries {database : Database} (hmanaged : database.isManaged = true)
    (name : String) :
    (databaseEntries database).filter (·.name = name) =
      (tuning database name).toList.map (⟨name, ·⟩) := by
  unfold databaseEntries tuning
  rw [if_pos hmanaged]
  simp only [List.filter_append, filter_given]
  by_cases hpool : name = "ZENML_STORE_POOL_SIZE"
  · simp [hpool, CoreFlags.given]
  · by_cases hoverflow : name = "ZENML_STORE_MAX_OVERFLOW"
    · simp [hoverflow, CoreFlags.given]
    · by_cases hstrategy : name = "ZENML_STORE_BACKUP_STRATEGY"
      · simp [hstrategy, CoreFlags.given]
      · by_cases hdatabase : name = "ZENML_STORE_BACKUP_DATABASE"
        · simp [hdatabase, CoreFlags.given]
        · simp [hpool, hoverflow, hstrategy, hdatabase]

theorem not_isStoreName_core {config : Configuration}
    (hunmanaged : config.database.isManaged = false) :
    ∀ entry ∈ (CoreFlags.ofConfiguration config).entries, ¬ IsStoreName entry.name := by
  have hserver : ∀ name ∈ ["ZENML_LOGGING_VERBOSITY", "ZENML_ANALYTICS_OPT_IN",
      "ZENML_DEFAULT_PROJECT_NAME", "ZENML_DEFAULT_USER_NAME", "ZENML_AUTH_TYPE",
      "ZENML_ENABLE_IMPLICIT_AUTH_METHODS", "ZENML_SERVER_URL", "ZENML_SERVER_DEPLOYMENT_TYPE"],
      ¬ IsStoreName name := by
    decide +kernel
  have hgiven (name : String) (value : Option String) :
      (∀ entry ∈ CoreFlags.given name value, ¬ IsStoreName entry.name) ↔
        (value ≠ none → ¬ IsStoreName name) := by
    cases value <;> simp [CoreFlags.given]
  simp only [CoreFlags.entries, List.forall_mem_append, List.forall_mem_cons, hgiven]
  simp [CoreFlags.ofConfiguration, hunmanaged, hserver]

theorem databaseEntries_eq_nil {database : Database} (hunmanaged : database.isManaged = false) :
    databaseEntries database = [] := by
  unfold databaseEntries
  rw [hunmanaged]
  rfl

end Environment

theorem isManaged_eq_true {database : Database} {url : String} (h : database.url = some url)
    (hblank : Text.isBlank url = false) : database.isManaged = true := by
  simp [Database.isManaged, h, hblank]

theorem isManaged_eq_false {database : Database}
    (h : ∀ url, database.url = some url → Text.isBlank url = true) :
    database.isManaged = false := by
  cases hurl : database.url with
  | none => simp [Database.isManaged, hurl]
  | some url => simp [Database.isManaged, hurl, h url hurl]

theorem withDatabase_of_plan {config : Configuration} (release : Release) (env : EnvironmentList)
    {url : String} (hurl : config.database.url = some url)
    (hblank : Text.isBlank url = false) :
    (Bundle.of (.ofEnvironment config release env)).WithDatabase config.database url
      (CoreFlags.ofConfiguration config).entries (databaseEntries config.database) := by
  have hmanaged := isManaged_eq_true hurl hblank
  have hcredential (key : String) (hkey : key ≠ "ZENML_SERVER_JWT_SECRET_KEY") :
      (Bundle.of (.ofEnvironment config release env)).at? .secret (Secret.credentialPath key) =
        (Secret.databaseCredential config.database key).map .text := by
    rw [at?_credential_of_plan, Secret.get?_credentials, if_neg hkey, if_pos hmanaged]
  constructor
  case flags => exact filter_core_of_mem_storeFlags hmanaged
  case tuned => exact filter_databaseEntries hmanaged
  case url =>
    rw [hcredential _ (by decide)]
    simp [Secret.databaseCredential, hurl]
  case password =>
    rw [hcredential _ (by decide)]
    simp [Secret.databaseCredential]
  case sslCa =>
    rw [hcredential _ (by decide)]
    simp [Secret.databaseCredential]

theorem withoutDatabase_of_plan {config : Configuration} (release : Release)
    (env : EnvironmentList) (hunmanaged : config.database.isManaged = false) :
    (Bundle.of (.ofEnvironment config release env)).WithoutDatabase
      (CoreFlags.ofConfiguration config).entries (databaseEntries config.database) := by
  constructor
  case environment =>
    rw [databaseEntries_eq_nil hunmanaged, List.append_nil]
    exact not_isStoreName_core hunmanaged
  case credentials =>
    intro key hkey
    have hjwt : ¬ IsStoreName "ZENML_SERVER_JWT_SECRET_KEY" := by decide +kernel
    have hne : key ≠ "ZENML_SERVER_JWT_SECRET_KEY" := fun heq => hjwt (heq ▸ hkey)
    rw [at?_credential_of_plan, Secret.get?_credentials, if_neg hne, hunmanaged]
    rfl
  case replicas =>
    have hreplicas : Plan.replicas config = some 1 := by
      simp [Plan.replicas, hunmanaged]
    have hdeployment : (Bundle.of (.ofEnvironment config release env)).deployment.replicas =
        Plan.replicas config := rfl
    simp [Deployment.toJson, hdeployment, hreplicas]
  case autoscaler =>
    rw [documents_kind_of]
    simp [kinds, hunmanaged]

/-- The url decides the mode in every place alike, whatever else is configured. -/
theorem render_database_switch (config : Configuration) (release : Release) (rendered : Rendered)
    (h : render config release = .ok rendered) :
    rendered.bundle.IsPrinted ∧
    ∃ core tuned, Source.core.entries config = .ok core ∧
      Source.database.entries config = .ok tuned ∧
      (∀ url, config.database.url = some url → Text.isBlank url = false →
        rendered.bundle.WithDatabase config.database url core tuned) ∧
      ((∀ url, config.database.url = some url → Text.isBlank url = true) →
        rendered.bundle.WithoutDatabase core tuned) := by
  obtain ⟨-, -, env, henv, rfl⟩ := render_eq_ok_iff.1 h
  obtain ⟨core, hcore⟩ := exists_entries_of_compose henv .core
  obtain ⟨tuned, htuned⟩ := exists_entries_of_compose henv .database
  obtain rfl := Except.ok.inj (Source.contribution_eq_of_entries hcore)
  obtain rfl := Except.ok.inj (Source.contribution_eq_of_entries htuned)
  refine ⟨Bundle.isPrinted _, _, _, hcore, htuned, ?_, ?_⟩
  · intro url hurl hblank
    exact withDatabase_of_plan release env hurl hblank
  · intro hblank
    exact withoutDatabase_of_plan release env (isManaged_eq_false hblank)

/-- A tuned database of a url, with settings that ask for several replicas. -/
def Configuration.ofUrl (url : String) : Configuration where
  replicaCount := 3
  autoscaling := { enabled := true }
  database := { url := some url, password := some "secret", poolSize := some 9 }

/-- A space for a url turns the same settings off. -/
theorem render_database_switch_of_urls :
    ∃ rendered rendered', render (.ofUrl "mysql://a") {} = .ok rendered ∧
      render (.ofUrl " ") {} = .ok rendered' ∧
      (∃ core tuned, rendered.bundle.WithDatabase (Configuration.ofUrl "mysql://a").database
        "mysql://a" core tuned) ∧
      ∃ core tuned, rendered'.bundle.WithoutDatabase core tuned := by
  refine ⟨_, _, rfl, rfl, ?_, ?_⟩
  · obtain ⟨-, core, tuned, -, -, hwith, -⟩ := render_database_switch (.ofUrl "mysql://a") {} _ rfl
    exact ⟨core, tuned, hwith _ rfl (by decide +kernel)⟩
  · obtain ⟨-, core, tuned, -, -, -, hwithout⟩ := render_database_switch (.ofUrl " ") {} _ rfl
    refine ⟨core, tuned, hwithout ?_⟩
    intro url hurl
    obtain rfl := Option.some.inj hurl
    decide +kernel

end ServerManifests
