import ServerManifests.Proofs.Environment.Composition
import ServerManifests.Proofs.Render.Outcome

/-!
Fields that do not count. What an external database, an autoscaler, an ingress, a
store or an account would use has no influence where there is none of them, so
leftovers of another setup change nothing that is rendered.
-/
namespace ServerManifests

open Environment Manifest

namespace Configuration

def Unmanaged (config : Configuration) : Prop := config.database.isManaged = false

/-- Two configurations have the same value of a field, which may be inactive in both. -/
def AgreeUnless {α : Type} (inactive : Configuration → Prop) (field : Configuration → α)
    (first second : Configuration) : Prop :=
  field first = field second ∨ inactive first ∧ inactive second

/-- A configuration with the parts of another one in which fields can be inactive. -/
def withGated (config source : Configuration) : Configuration :=
  { config with
    replicaCount := source.replicaCount
    autoscaling := source.autoscaling
    database := source.database
    secretsStore := source.secretsStore
    backupSecretsStore := source.backupSecretsStore
    ingress := source.ingress
    serviceAccount := source.serviceAccount }

/-- Two configurations agree on every field that is active in one of them. A switch
that is off in both has the same value in both, so a block may differ as a whole. -/
structure AgreesButInactive (first second : Configuration) : Prop where
  rest : first.withGated {} = second.withGated {}
  database : AgreeUnless Unmanaged (·.database) first second
  replicaCount : AgreeUnless (fun config => config.Unmanaged ∨ config.autoscaling.enabled = true)
    (·.replicaCount) first second
  autoscaling : AgreeUnless (fun config => config.Unmanaged ∨ config.autoscaling.enabled = false)
    (·.autoscaling) first second
  secretsStore : AgreeUnless (·.secretsStore.enabled = false) (·.secretsStore) first second
  backupSecretsStore : AgreeUnless (·.backupSecretsStore.enabled = false)
    (·.backupSecretsStore) first second
  ingress : AgreeUnless (·.ingress.enabled = false) (·.ingress) first second
  serviceAccount : first.serviceAccount.create = second.serviceAccount.create ∧
    first.serviceAccount.name = second.serviceAccount.name
  annotations : AgreeUnless (·.serviceAccount.create = false)
    (·.serviceAccount.annotations) first second

/-- A configuration with the defaults of all fields that are inactive in it. -/
def active (config : Configuration) : Configuration :=
  let managed := config.database.isManaged
  let scaled := config.autoscaling.enabled
  { config with
    replicaCount := if managed && !scaled then config.replicaCount else 1
    autoscaling := if managed && scaled then config.autoscaling else {}
    database := if managed then config.database else {}
    secretsStore := if config.secretsStore.enabled then config.secretsStore else {}
    backupSecretsStore :=
      if config.backupSecretsStore.enabled then config.backupSecretsStore else {}
    ingress := if config.ingress.enabled then config.ingress else {}
    serviceAccount := { config.serviceAccount with
      annotations :=
        if config.serviceAccount.create then config.serviceAccount.annotations else {} } }

namespace AgreeUnless

variable {α : Type} {inactive : Configuration → Prop} {field : Configuration → α}
  {first second : Configuration} (switch : Configuration → Bool)

/-- A switch that belongs to a block is the same in both configurations. -/
theorem switch_eq (h : AgreeUnless (switch · = false) field first second)
    (hswitch : field first = field second → switch first = switch second) :
    switch first = switch second := by
  obtain heq | ⟨hfirst, hsecond⟩ := h
  · exact hswitch heq
  · rw [hfirst, hsecond]

/-- What counts of a field is the same. -/
theorem ite_eq (h : AgreeUnless inactive field first second) (unset : α)
    (hswitch : switch first = switch second)
    (hinactive : ∀ config, inactive config → switch config = false) :
    (if switch first then field first else unset) =
      if switch second then field second else unset := by
  obtain heq | ⟨hfirst, hsecond⟩ := h
  · rw [heq, hswitch]
  · rw [hinactive first hfirst, hinactive second hsecond]
    rfl

end AgreeUnless

variable (config : Configuration)

theorem isManaged_active : config.active.database.isManaged = config.database.isManaged := by
  cases hmanaged : config.database.isManaged with
  | false =>
    have hdefault : Database.isManaged {} = false := rfl
    simp [active, hmanaged, hdefault]
  | true => simp [active, hmanaged]

theorem compose_active : compose config.active = compose config := by
  apply SourcesAlike.compose_eq
  constructor
  case database =>
    refine ⟨isManaged_active config, fun hmanaged => ?_⟩
    rw [isManaged_active] at hmanaged
    simp [active, hmanaged]
  case server => rfl
  case secretsStore =>
    cases henabled : config.secretsStore.enabled <;>
      simp [Source.contribution, active, henabled]
  case backupSecretsStore =>
    cases henabled : config.backupSecretsStore.enabled <;>
      simp [Source.contribution, active, henabled]
  case user => rfl

theorem replicas_active : Plan.replicas config.active = Plan.replicas config := by
  unfold Plan.replicas
  rw [isManaged_active]
  cases hmanaged : config.database.isManaged with
  | false => rfl
  | true => cases hscaled : config.autoscaling.enabled <;> simp [active, hmanaged, hscaled]

theorem autoscaling_active : Plan.autoscaling config.active = Plan.autoscaling config := by
  unfold Plan.autoscaling
  rw [isManaged_active]
  cases hmanaged : config.database.isManaged with
  | false => rfl
  | true => cases hscaled : config.autoscaling.enabled <;> simp [active, hmanaged, hscaled]

end Configuration

section

variable (config : Configuration) (release : Release) (env : EnvironmentList)

theorem credentials_active : Secret.credentials config.active = Secret.credentials config := by
  simp only [Secret.credentials, Configuration.isManaged_active]
  cases hmanaged : config.database.isManaged with
  | false => rfl
  | true => simp [Configuration.active, hmanaged]

theorem secret_active :
    Secret.of (.ofEnvironment config.active release env) =
      Secret.of (.ofEnvironment config release env) := by
  unfold Secret.of
  congr 1
  exact credentials_active config

theorem deployment_active (checksum : String) :
    Deployment.of (.ofEnvironment config.active release env) checksum =
      Deployment.of (.ofEnvironment config release env) checksum := by
  unfold Deployment.of
  congr 1
  exact Configuration.replicas_active config

theorem serviceAccount_active :
    ServiceAccount.of? (.ofEnvironment config.active release env) =
      ServiceAccount.of? (.ofEnvironment config release env) := by
  cases hcreate : config.serviceAccount.create with
  | false =>
    have hactive : config.active.serviceAccount.create = false := hcreate
    simp [ServiceAccount.of?, DeploymentPlan.ofEnvironment, hcreate, hactive]
  | true =>
    have hactive : config.active.serviceAccount = config.serviceAccount := by
      simp only [Configuration.active, if_pos hcreate]
    simp only [ServiceAccount.of?, DeploymentPlan.ofEnvironment, hactive]
    rfl

theorem ingress_active :
    Ingress.of? (.ofEnvironment config.active release env) =
      Ingress.of? (.ofEnvironment config release env) := by
  cases henabled : config.ingress.enabled with
  | false =>
    have hactive : config.active.ingress.enabled = false := by
      simp [Configuration.active, henabled]
    simp [Ingress.of?, DeploymentPlan.ofEnvironment, henabled, hactive]
  | true =>
    have hactive : config.active.ingress = config.ingress := if_pos henabled
    simp only [Ingress.of?, DeploymentPlan.ofEnvironment, hactive]
    rfl

theorem autoscaler_active :
    Autoscaler.of? (.ofEnvironment config.active release env) =
      Autoscaler.of? (.ofEnvironment config release env) := by
  unfold Autoscaler.of?
  change (Plan.autoscaling config.active).map _ = (Plan.autoscaling config).map _
  rw [Configuration.autoscaling_active]
  rfl

/-- The manifests do not depend on inactive fields. -/
theorem bundle_active :
    Bundle.of (.ofEnvironment config.active release env) =
      Bundle.of (.ofEnvironment config release env) := by
  simp only [Bundle.of, secret_active, serviceAccount_active, deployment_active,
    autoscaler_active, ingress_active]
  rfl

/-- Nor do the access instructions. -/
theorem access_active :
    Access.of (.ofEnvironment config.active release env) =
      Access.of (.ofEnvironment config release env) := by
  cases henabled : config.ingress.enabled with
  | false =>
    have hactive : config.active.ingress.enabled = false := by
      simp [Configuration.active, henabled]
    simp only [Access.of, DeploymentPlan.ofEnvironment, henabled, hactive]
    rfl
  | true =>
    have hactive : config.active.ingress = config.ingress := if_pos henabled
    simp only [Access.of, Access.ofIngress, Plan.ingressScheme, DeploymentPlan.ofEnvironment,
      henabled, hactive]
    rfl

end

namespace Configuration.AgreesButInactive

variable {first second : Configuration} (h : first.AgreesButInactive second)
include h

theorem isManaged_eq : first.database.isManaged = second.database.isManaged :=
  h.database.switch_eq (·.database.isManaged) (congrArg Database.isManaged)

/-- Whether an autoscaler is on counts with an external database only. -/
theorem scaled_eq (hmanaged : first.database.isManaged = true) :
    first.autoscaling.enabled = second.autoscaling.enabled := by
  have hmanaged' := h.isManaged_eq ▸ hmanaged
  obtain heq | ⟨hfirst | hfirst, hsecond | hsecond⟩ := h.autoscaling
  · exact congrArg Autoscaling.enabled heq
  · exact absurd hmanaged (Bool.eq_false_iff.1 hfirst)
  · exact absurd hmanaged (Bool.eq_false_iff.1 hfirst)
  · exact absurd hmanaged' (Bool.eq_false_iff.1 hsecond)
  · exact hfirst.trans hsecond.symm

theorem active_replicaCount_eq : first.active.replicaCount = second.active.replicaCount := by
  refine h.replicaCount.ite_eq
    (fun config => config.database.isManaged && !config.autoscaling.enabled) 1 ?_ ?_
  · cases hmanaged : first.database.isManaged with
    | false => simp [← h.isManaged_eq, hmanaged]
    | true => rw [← h.isManaged_eq, hmanaged, h.scaled_eq hmanaged]
  · rintro config (hmanaged | hscaled)
    · exact Bool.and_eq_false_iff.2 (.inl hmanaged)
    · simp [hscaled]

theorem active_autoscaling_eq : first.active.autoscaling = second.active.autoscaling := by
  refine h.autoscaling.ite_eq
    (fun config => config.database.isManaged && config.autoscaling.enabled) {} ?_ ?_
  · cases hmanaged : first.database.isManaged with
    | false => simp [← h.isManaged_eq, hmanaged]
    | true => rw [← h.isManaged_eq, hmanaged, h.scaled_eq hmanaged]
  · rintro config (hmanaged | hscaled)
    · exact Bool.and_eq_false_iff.2 (.inl hmanaged)
    · exact Bool.and_eq_false_iff.2 (.inr hscaled)

theorem active_serviceAccount_eq :
    first.active.serviceAccount = second.active.serviceAccount := by
  have hannotations := h.annotations.ite_eq (·.serviceAccount.create) {} h.serviceAccount.1
    fun _ hcreate => hcreate
  simp only [active, h.serviceAccount.2, hannotations]
  rw [h.serviceAccount.1]

/-- Both configurations have the same active part. -/
theorem active_eq : first.active = second.active := by
  have hdatabase : first.active.database = second.active.database :=
    h.database.ite_eq (·.database.isManaged) {} h.isManaged_eq fun _ hmanaged => hmanaged
  have hstore : first.active.secretsStore = second.active.secretsStore :=
    h.secretsStore.ite_eq (·.secretsStore.enabled) {}
      (h.secretsStore.switch_eq _ (congrArg SecretsStore.enabled)) fun _ hoff => hoff
  have hbackup : first.active.backupSecretsStore = second.active.backupSecretsStore :=
    h.backupSecretsStore.ite_eq (·.backupSecretsStore.enabled) {}
      (h.backupSecretsStore.switch_eq _ (congrArg SecretsStore.enabled)) fun _ hoff => hoff
  have hingress : first.active.ingress = second.active.ingress :=
    h.ingress.ite_eq (·.ingress.enabled) {}
      (h.ingress.switch_eq _ (congrArg Ingress.enabled)) fun _ hoff => hoff
  calc
    first.active = (first.withGated {}).withGated first.active := rfl
    _ = (second.withGated {}).withGated second.active := by
      rw [h.rest]
      simp only [withGated, h.active_replicaCount_eq, h.active_autoscaling_eq, hdatabase, hstore,
        hbackup, hingress, h.active_serviceAccount_eq]
    _ = second.active := rfl

end Configuration.AgreesButInactive

/-- Two renders whose configurations agree but for inactive fields are the same. -/
theorem render_ignores_inactive (first second : Configuration) (release : Release)
    (rendered rendered' : Rendered) (hrendered : render first release = .ok rendered)
    (hrendered' : render second release = .ok rendered') (h : first.AgreesButInactive second) :
    rendered.bundle = rendered'.bundle ∧ rendered.bundle.stream = rendered'.bundle.stream ∧
      rendered.access = rendered'.access := by
  obtain ⟨-, -, env, henv, rfl⟩ := render_eq_ok_iff.1 hrendered
  obtain ⟨-, -, env', henv', rfl⟩ := render_eq_ok_iff.1 hrendered'
  have hactive := h.active_eq
  have hsame : env = env' := by
    rw [← Configuration.compose_active, hactive, Configuration.compose_active, henv'] at henv
    exact (Except.ok.inj henv).symm
  subst hsame
  have hbundle : Bundle.of (.ofEnvironment first release env) =
      Bundle.of (.ofEnvironment second release env) := by
    rw [← bundle_active, hactive, bundle_active]
  have haccess : Access.of (.ofEnvironment first release env) =
      Access.of (.ofEnvironment second release env) := by
    rw [← access_active, hactive, access_active]
  exact ⟨hbundle, congrArg Bundle.stream hbundle, haccess⟩

/-- The defaults with leftovers of a database, an autoscaler, an ingress and a store. -/
def Configuration.ofLeftovers : Configuration where
  replicaCount := 3
  autoscaling := { enabled := true, minReplicas := 2 }
  database := { password := some "old", poolSize := some 9 }
  ingress := { host := some "example.org" }
  backupSecretsStore := { backend := .aws, authMethod := some "key" }

/-- The leftovers are not seen. -/
theorem render_ignores_inactive_of_leftovers :
    ∃ rendered rendered', render .ofLeftovers {} = .ok rendered ∧ render {} {} = .ok rendered' ∧
      rendered.bundle = rendered'.bundle ∧ rendered.bundle.stream = rendered'.bundle.stream ∧
      rendered.access = rendered'.access := by
  have hagrees : Configuration.ofLeftovers.AgreesButInactive {} := {
    rest := rfl
    database := .inr ⟨rfl, rfl⟩
    replicaCount := .inr ⟨.inl rfl, .inl rfl⟩
    autoscaling := .inr ⟨.inl rfl, .inl rfl⟩
    secretsStore := .inl rfl
    backupSecretsStore := .inr ⟨rfl, rfl⟩
    ingress := .inr ⟨rfl, rfl⟩
    serviceAccount := ⟨rfl, rfl⟩
    annotations := .inl rfl }
  refine ⟨_, _, rfl, rfl, ?_⟩
  exact render_ignores_inactive .ofLeftovers {} {} _ _ rfl rfl hagrees

end ServerManifests
