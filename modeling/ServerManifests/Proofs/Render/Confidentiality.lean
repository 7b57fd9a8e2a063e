import ServerManifests.Proofs.Environment.Composition
import ServerManifests.Proofs.Render.Outcome
import ServerManifests.Proofs.TextMap

/-!
Credentials stay in the secret. Two configurations that differ in credentials
only, with the database managed in both or in neither, fail alike or give the
same manifests but for the data of the secret and its checksum on the pods.
-/
namespace ServerManifests

open Environment Manifest

namespace Configuration

/-- A configuration with the credentials of another one. -/
def withCredentials (config source : Configuration) : Configuration :=
  { config with
    jwtSecretKey := source.jwtSecretKey
    database := { config.database with
      url := source.database.url
      password := source.database.password
      sslCa := source.database.sslCa } }

/-- Two configurations agree on everything that is no credential, and on whether
the database is managed. -/
structure AgreesButCredentials (first second : Configuration) : Prop where
  rest : second.withCredentials {} = first.withCredentials {}
  mode : second.database.isManaged = first.database.isManaged

/-- What is no credential is shared, so one configuration is the other one with
its own credentials. -/
theorem AgreesButCredentials.eq_withCredentials {first second : Configuration}
    (h : first.AgreesButCredentials second) : second = first.withCredentials second :=
  calc
    second = (second.withCredentials {}).withCredentials second := rfl
    _ = (first.withCredentials {}).withCredentials second := by rw [h.rest]
    _ = first.withCredentials second := rfl

variable {config source : Configuration}
  (hmode : (config.withCredentials source).database.isManaged = config.database.isManaged)
include hmode

theorem compose_withCredentials :
    compose (config.withCredentials source) = compose config :=
  SourcesAlike.compose_eq {
    database := ⟨hmode, fun _ => rfl⟩
    server := rfl
    secretsStore := rfl
    backupSecretsStore := rfl
    user := rfl }

theorem replicas_withCredentials :
    Plan.replicas (config.withCredentials source) = Plan.replicas config := by
  unfold Plan.replicas
  rw [hmode]
  rfl

theorem autoscaling_withCredentials :
    Plan.autoscaling (config.withCredentials source) = Plan.autoscaling config := by
  unfold Plan.autoscaling
  rw [hmode]
  rfl

/-- The plan is the same but for the configuration that it keeps. -/
theorem resolve_withCredentials (release : Release) :
    (config.withCredentials source).resolve release =
      (config.resolve release).map fun plan =>
        { plan with config := config.withCredentials source } := by
  unfold Configuration.resolve
  rw [compose_withCredentials hmode, replicas_withCredentials hmode,
    autoscaling_withCredentials hmode]
  have hcheck : Plan.checkConfiguration (config.withCredentials source) =
      Plan.checkConfiguration config := rfl
  rw [hcheck]
  cases Plan.checkRelease release with
  | error failure => rfl
  | ok _ =>
    cases Plan.checkConfiguration config with
    | error failure => rfl
    | ok _ =>
      cases compose config with
      | error failure => rfl
      | ok env => rfl

end Configuration

/-- The documents that hold no credential and no checksum of them. -/
def Bundle.publicDocuments (bundle : Bundle) : List Document :=
  bundle.documents.filter fun document =>
    document.kind ≠ .secret ∧ document.kind ≠ .deployment

/-- What two renders have in common if they differ in credentials only. -/
structure Rendered.AgreesButSecret (first second : Rendered) : Prop where
  serviceAccount : second.bundle.serviceAccount = first.bundle.serviceAccount
  service : second.bundle.service = first.bundle.service
  autoscaler : second.bundle.autoscaler = first.bundle.autoscaler
  ingress : second.bundle.ingress = first.bundle.ingress
  access : second.access = first.access
  deployment : ∃ checksum,
    second.bundle.deployment = { first.bundle.deployment with
      template := { first.bundle.deployment.template with
        annotations := first.bundle.deployment.template.annotations.insert
          checksumAnnotation checksum } }
  secret : second.bundle.secret =
    { first.bundle.secret with data := second.bundle.secret.data }
  documents : second.bundle.publicDocuments = first.bundle.publicDocuments

theorem publicDocuments_eq {first second : Bundle}
    (hserviceAccount : second.serviceAccount = first.serviceAccount)
    (hservice : second.service = first.service)
    (hautoscaler : second.autoscaler = first.autoscaler)
    (hingress : second.ingress = first.ingress) :
    second.publicDocuments = first.publicDocuments := by
  unfold Bundle.publicDocuments Bundle.documents Bundle.manifests
  rw [hserviceAccount, hservice, hautoscaler, hingress]
  simp [List.filter_map, Function.comp_def]

/-- The manifests of a plan whose configuration has other credentials. -/
theorem agreesButSecret_of_plan (plan : DeploymentPlan) {config source : Configuration}
    (h : config = plan.config.withCredentials source) :
    let other := { plan with config }
    Rendered.AgreesButSecret ⟨plan, .of plan, .of plan⟩ ⟨other, .of other, .of other⟩ := by
  subst h
  intro other
  refine ⟨rfl, rfl, rfl, rfl, rfl, ⟨(Secret.of other).checksum, ?_⟩, rfl, ?_⟩
  · change Deployment.of other _ = _
    unfold Bundle.of Deployment.of PodTemplate.of
    simp only [TextMap.insert_insert]
    rfl
  · exact publicDocuments_eq rfl rfl rfl rfl

/-- Renders of configurations that differ in credentials only fail alike, and
where they succeed they differ in the secret's data and its checksum only. -/
theorem render_hides_credentials (first second : Configuration) (release : Release)
    (h : first.AgreesButCredentials second) :
    (∀ failure, render second release = .error failure ↔ render first release = .error failure) ∧
    ∀ rendered rendered', render first release = .ok rendered →
      render second release = .ok rendered' → rendered.AgreesButSecret rendered' := by
  have hsecond := h.eq_withCredentials
  have hmode : (first.withCredentials second).database.isManaged = first.database.isManaged := by
    rw [← hsecond]
    exact h.mode
  have hresolve := Configuration.resolve_withCredentials hmode release
  rw [← hsecond] at hresolve
  unfold render
  rw [hresolve]
  constructor
  · intro failure
    cases first.resolve release with
    | error e => rfl
    | ok plan => simp [Except.map]
  · intro rendered rendered' hrendered hrendered'
    obtain ⟨plan, hplan, rfl⟩ := map_eq_ok_iff.1 hrendered
    obtain ⟨-, -, env, -, rfl⟩ := resolve_eq_ok_iff.1 hplan
    rw [hplan] at hrendered'
    obtain rfl := Except.ok.inj hrendered'
    exact agreesButSecret_of_plan (.ofEnvironment first release env) hsecond

/-- The defaults with an external database. -/
def Configuration.ofDatabase (url password : String) : Configuration where
  database := { url := some url, password := some password }

/-- Two external databases with different passwords: the secrets differ and the
rest is the same. -/
theorem render_hides_credentials_of_managed :
    ∃ rendered rendered', render (.ofDatabase "mysql://a" "one") {} = .ok rendered ∧
      render (.ofDatabase "mysql://b" "two") {} = .ok rendered' ∧
      rendered.AgreesButSecret rendered' ∧
      rendered.bundle.secret.data ≠ rendered'.bundle.secret.data := by
  have hagrees : (Configuration.ofDatabase "mysql://a" "one").AgreesButCredentials
      (.ofDatabase "mysql://b" "two") := ⟨rfl, by decide +kernel⟩
  refine ⟨_, _, rfl, rfl, ?_, ?_⟩
  · exact (render_hides_credentials _ _ {} hagrees).2 _ _ rfl rfl
  · decide +kernel

end ServerManifests
