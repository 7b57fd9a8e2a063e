import ServerManifests.Proofs.Manifest.Credentials

/-!
The checksum of the credentials on the pods. It is the digest of the text of the secret's
document, so as far as texts and digests tell secrets apart, the pods are replaced exactly
when a credential that is in use changes.
-/
namespace ServerManifests

open Manifest

namespace Manifest

/-- The path to an annotation of the pods. -/
def annotationPath (key : String) : List Json.Step :=
  ["spec", "template", "metadata", "annotations", .member key]

end Manifest

/-- The text of the secret's document. -/
def Bundle.secretText (bundle : Bundle) : String := Yaml.Printer.print bundle.secret.toJson

/-- The pods carry the digest of the secret's document and the given annotations. -/
structure Bundle.Stamped (given : TextMap String) (bundle : Bundle) : Prop where
  annotations : ∀ key, bundle.at? .deployment (annotationPath key) =
    if key = checksumAnnotation then some (.text bundle.secretChecksum)
    else (given.get? key).map .text
  document : bundle.documents.filter (·.kind = .secret) = [⟨.secret, bundle.secretText⟩]
  digest : bundle.secretChecksum = Sha256.hexDigest bundle.secretText

/-- Two secrets are told apart by their texts and these by their digests. -/
structure Bundle.TellsApart (first second : Bundle) : Prop where
  text : first.secretText = second.secretText → first.secret.toJson = second.secret.toJson
  digest : Sha256.hexDigest first.secretText = Sha256.hexDigest second.secretText →
    first.secretText = second.secretText

namespace Configuration

/-- Two configurations use the same credentials. Those of a database count only where it
is in use. -/
structure SameCredentials (first second : Configuration) : Prop where
  jwtSecretKey : first.jwtSecretKey = second.jwtSecretKey
  mode : first.database.isManaged = second.database.isManaged
  database : first.database.isManaged = true →
    first.database.url = second.database.url ∧
    first.database.password = second.database.password ∧
    first.database.sslCa = second.database.sslCa

variable {first second : Configuration}

theorem SameCredentials.credentials_eq (h : first.SameCredentials second) :
    Secret.credentials first = Secret.credentials second := by
  simp only [Secret.credentials, h.jwtSecretKey, h.mode]
  cases hmanaged : second.database.isManaged with
  | false => rfl
  | true =>
    obtain ⟨hurl, hpassword, hsslCa⟩ := h.database (h.mode.trans hmanaged)
    rw [hurl, hpassword, hsslCa]

/-- The secret tells the mode by the url, which it holds in one of them only. -/
theorem isSome_url (config : Configuration) :
    ((Secret.credentials config).get? "ZENML_STORE_URL").isSome = config.database.isManaged := by
  rw [Secret.get?_credentials, if_neg (by decide)]
  cases hmanaged : config.database.isManaged with
  | false => rfl
  | true =>
    have hurl : config.database.url.isSome = true := by
      obtain ⟨url, hurl, -⟩ := (Option.any_eq_true _ _).1 hmanaged
      exact Option.isSome_of_eq_some hurl
    simpa [Secret.databaseCredential] using hurl

theorem sameCredentials_of_get?
    (h : ∀ key, (Secret.credentials first).get? key = (Secret.credentials second).get? key) :
    first.SameCredentials second := by
  have hmode : first.database.isManaged = second.database.isManaged := by
    rw [← isSome_url, ← isSome_url, h]
  constructor
  case jwtSecretKey => simpa [Secret.get?_credentials] using h "ZENML_SERVER_JWT_SECRET_KEY"
  case mode => exact hmode
  case database =>
    intro hmanaged
    have hmanaged' := hmode ▸ hmanaged
    refine ⟨?_, ?_, ?_⟩
    · simpa [Secret.get?_credentials, Secret.databaseCredential, hmanaged, hmanaged'] using
        h "ZENML_STORE_URL"
    · simpa [Secret.get?_credentials, Secret.databaseCredential, hmanaged, hmanaged'] using
        h "ZENML_STORE_PASSWORD"
    · simpa [Secret.get?_credentials, Secret.databaseCredential, hmanaged, hmanaged'] using
        h "ZENML_STORE_SSL_CA"

end Configuration

theorem Bundle.at?_annotation (bundle : Bundle) (key : String) :
    bundle.at? .deployment (annotationPath key) =
      (bundle.deployment.template.annotations.get? key).map .text := by
  rw [at?_deployment, annotationPath, Deployment.at?_template, PodTemplate.toJson,
    Json.at?_object_here, Json.at?_ofGiven_first (by simp), Json.at?_unlessEmpty]

theorem Bundle.filter_secret (bundle : Bundle) :
    bundle.documents.filter (·.kind = .secret) = [⟨.secret, bundle.secretText⟩] := by
  rw [bundle.isPrinted.kinds, tree?_eq]
  rfl

theorem stamped_of_plan (plan : DeploymentPlan) :
    (Bundle.of plan).Stamped plan.config.podAnnotations := by
  have hannotations : (Bundle.of plan).deployment.template.annotations =
      plan.config.podAnnotations.insert checksumAnnotation (Bundle.of plan).secretChecksum := rfl
  constructor
  case annotations =>
    intro key
    rw [Bundle.at?_annotation, hannotations, TextMap.get?_insert]
    split <;> rfl
  case document => exact Bundle.filter_secret _
  case digest => rfl

/-- The names depend on the release and on what overrides them. -/
theorem Plan.Names.of_congr {first second : Configuration} (release : Release)
    (hname : first.nameOverride = second.nameOverride)
    (hfullname : first.fullnameOverride = second.fullnameOverride) :
    (Plan.Names.of first release).name = (Plan.Names.of second release).name ∧
      (Plan.Names.of first release).fullname = (Plan.Names.of second release).fullname := by
  have hbase : Plan.baseName first release = Plan.baseName second release := by
    rw [Plan.baseName, hname, Plan.baseName]
  constructor
  · exact congrArg Plan.truncateName hbase
  · change Plan.fullname first release = Plan.fullname second release
    rw [Plan.fullname, hbase, hfullname, Plan.fullname]

section

variable {first second : Configuration} {release : Release} {env env' : EnvironmentList}

/-- Secrets under the same names differ by their data only. -/
theorem Manifest.Secret.of_congr (hname : first.nameOverride = second.nameOverride)
    (hfullname : first.fullnameOverride = second.fullnameOverride)
    (hdata : Secret.credentials first = Secret.credentials second) :
    Secret.of (.ofEnvironment first release env) =
      Secret.of (.ofEnvironment second release env') := by
  obtain ⟨happ, hfull⟩ := Plan.Names.of_congr release hname hfullname
  unfold Secret.of Metadata.of standardLabels selectorLabels
  simp only [DeploymentPlan.ofEnvironment, happ, hfull, hdata]

/-- Configurations whose secrets are written alike use the same credentials. -/
theorem sameCredentials_of_toJson
    (h : (Secret.of (.ofEnvironment first release env)).toJson =
      (Secret.of (.ofEnvironment second release env')).toJson) :
    first.SameCredentials second := by
  apply Configuration.sameCredentials_of_get?
  intro key
  have htree : (Bundle.of (.ofEnvironment first release env)).at? .secret
        (Secret.credentialPath key) =
      (Bundle.of (.ofEnvironment second release env')).at? .secret
        (Secret.credentialPath key) := by
    rw [Bundle.at?_secret, Bundle.at?_secret]
    exact congrArg (Json.at? · _) h
  rw [at?_credential_of_plan, at?_credential_of_plan] at htree
  exact Option.map_injective (fun _ _ => Json.text.inj) htree

end

/-- The pods of a render carry the digest of its secret; those of two renders carry the
same digest exactly if the same credentials are in use. -/
theorem render_stamps_credentials (first : Configuration) (release : Release)
    (rendered : Rendered) (hrendered : render first release = .ok rendered) :
    rendered.bundle.Stamped first.podAnnotations ∧
    ∀ second rendered', render second release = .ok rendered' →
      first.nameOverride = second.nameOverride →
      first.fullnameOverride = second.fullnameOverride →
      rendered.bundle.TellsApart rendered'.bundle →
      (rendered.bundle.at? .deployment (annotationPath checksumAnnotation) =
        rendered'.bundle.at? .deployment (annotationPath checksumAnnotation) ↔
        first.SameCredentials second) := by
  obtain ⟨-, -, env, -, rfl⟩ := render_eq_ok_iff.1 hrendered
  have hstamped := stamped_of_plan (.ofEnvironment first release env)
  refine ⟨hstamped, ?_⟩
  intro second rendered' hrendered' hname hfullname hapart
  obtain ⟨-, -, env', -, rfl⟩ := render_eq_ok_iff.1 hrendered'
  have hstamped' := stamped_of_plan (.ofEnvironment second release env')
  rw [hstamped.annotations, hstamped'.annotations, if_pos rfl, if_pos rfl, Option.some.injEq,
    Json.text.injEq, hstamped.digest, hstamped'.digest]
  constructor
  · intro hdigest
    exact sameCredentials_of_toJson (hapart.text (hapart.digest hdigest))
  · intro hsame
    have hsecret : (Bundle.of (.ofEnvironment first release env)).secret =
        (Bundle.of (.ofEnvironment second release env')).secret :=
      Secret.of_congr hname hfullname hsame.credentials_eq
    unfold Bundle.secretText
    rw [hsecret]

/-- A signing key, a password without a database and pod annotations, one of them under
the name of the checksum. -/
def Configuration.ofAnnotated : Configuration where
  jwtSecretKey := some "key"
  database := { url := some " ", password := some "old" }
  podAnnotations := .ofList [("checksum/secret", "mine"), ("team", "ml")]

/-- The signing key alone gives the same checksum. -/
theorem render_stamps_credentials_of_annotated :
    ∃ rendered rendered', render .ofAnnotated {} = .ok rendered ∧
      render { jwtSecretKey := some "key" } {} = .ok rendered' ∧
      rendered.bundle.at? .deployment (annotationPath checksumAnnotation) =
        rendered'.bundle.at? .deployment (annotationPath checksumAnnotation) ∧
      rendered.bundle.at? .deployment (annotationPath "team") = some (.text "ml") := by
  obtain ⟨hstamped, hsame⟩ := render_stamps_credentials .ofAnnotated {} _ rfl
  have hsame := hsame { jwtSecretKey := some "key" } _ rfl rfl rfl
  have hcredentials : Configuration.ofAnnotated.SameCredentials { jwtSecretKey := some "key" } := {
    jwtSecretKey := rfl
    mode := by decide +kernel
    database := fun hmanaged => absurd hmanaged (by decide +kernel) }
  refine ⟨_, _, rfl, rfl, ?_, ?_⟩
  · exact (hsame ⟨fun _ => rfl, fun _ => rfl⟩).2 hcredentials
  · exact hstamped.annotations "team"

end ServerManifests
