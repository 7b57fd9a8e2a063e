import ServerManifests.Proofs.Environment.Composition
import ServerManifests.Proofs.Plan.Labels
import ServerManifests.Proofs.Render.Outcome

/-!
Which configurations and releases are rendered. The conditions are stated in the
terms of a user; every other configuration is refused, and of several violated
conditions the first one is reported.
-/
namespace ServerManifests

open ServerManifests.Configuration Environment Plan

/-- Bounds of an autoscaler that leave it something to do. -/
structure Configuration.Autoscaling.Workable (autoscaling : Autoscaling) : Prop where
  minimum : 1 ≤ autoscaling.minReplicas
  maximum : autoscaling.minReplicas ≤ autoscaling.maxReplicas
  targets_nonneg : ∀ target,
    autoscaling.targetCpu = some target ∨ autoscaling.targetMemory = some target → 0 ≤ target
  target_pos : ∃ target,
    (autoscaling.targetCpu = some target ∨ autoscaling.targetMemory = some target) ∧ 0 < target

structure Acceptable (config : Configuration) (release : Release) : Prop where
  name_label : IsLabel release.name
  name_length : release.name.length ≤ 53
  namespace_label : IsLabel release.targetNamespace
  namespace_length : release.targetNamespace.length ≤ 63
  repository : ∃ repository,
    config.image.repository = some repository ∧ Text.isBlank repository = false
  replicas : 1 ≤ config.replicaCount
  autoscaling : config.autoscaling.enabled = true → config.autoscaling.Workable
  port : 1 ≤ config.service.port ∧ config.service.port ≤ 65535
  ingress_path : config.ingress.enabled = true → config.ingress.path.toList.head? = some '/'
  ingress_host : config.ingress.enabled = true →
    ∀ host, config.ingress.host = some host → '/' ∉ host.toList
  store_class : ∀ store, store = config.secretsStore ∨ store = config.backupSecretsStore →
    store.enabled = true → store.backend = .custom →
      ∃ classPath, store.classPath = some classPath ∧ Text.isBlank classPath = false
  environment : ∃ env, compose config = .ok env

/-- The failure of the first condition that is violated. The environment is composed
where all requirements hold. -/
inductive FirstFault (config : Configuration) (release : Release) : Failure → Prop
  | requirement {passed rest : List Requirement} {violated : Requirement}
      (order : requirements config release = passed ++ violated :: rest)
      (before : ∀ r ∈ passed, r.holds = true) (here : violated.holds = false) :
      FirstFault config release violated.failure
  | environment {failure : Failure}
      (before : ∀ r ∈ requirements config release, r.holds = true)
      (here : compose config = .error failure) : FirstFault config release failure

theorem resolve_eq_verdict (config : Configuration) (release : Release) :
    config.resolve release = verdict (requirements config release) >>= fun _ =>
      (compose config).map (DeploymentPlan.ofEnvironment config release) := by
  rw [← checks_eq_verdict]
  unfold Configuration.resolve
  cases checkRelease release with
  | error failure => rfl
  | ok _ =>
    cases checkConfiguration config with
    | error failure => rfl
    | ok _ => cases compose config <;> rfl

theorem forall_mem_autoscalingRequirements {autoscaling : Autoscaling} :
    (∀ r ∈ autoscalingRequirements autoscaling, r.holds = true) ↔ autoscaling.Workable := by
  have hnonneg (target : Option Int32) :
      target.all (0 ≤ ·) = true ↔ ∀ n, target = some n → 0 ≤ n := by
    cases target <;> simp
  have hpos (target : Option Int32) :
      target.any (0 < ·) = true ↔ ∃ n, target = some n ∧ 0 < n := by
    cases target <;> simp
  simp only [autoscalingRequirements, List.forall_mem_cons, List.not_mem_nil, false_implies,
    implies_true, hnonneg, hpos, Bool.or_eq_true, decide_eq_true_eq, and_true]
  constructor
  · rintro ⟨hminimum, hmaximum, hcpu, hmemory, htarget⟩
    refine ⟨hminimum, hmaximum, ?_, ?_⟩
    · rintro target (hgiven | hgiven)
      · exact hcpu target hgiven
      · exact hmemory target hgiven
    · obtain ⟨target, hgiven, habove⟩ | ⟨target, hgiven, habove⟩ := htarget
      · exact ⟨target, .inl hgiven, habove⟩
      · exact ⟨target, .inr hgiven, habove⟩
  · intro h
    refine ⟨h.minimum, h.maximum, ?_, ?_, ?_⟩
    · exact fun target hgiven => h.targets_nonneg target (.inl hgiven)
    · exact fun target hgiven => h.targets_nonneg target (.inr hgiven)
    · obtain ⟨target, hgiven | hgiven, habove⟩ := h.target_pos
      · exact .inl ⟨target, hgiven, habove⟩
      · exact .inr ⟨target, hgiven, habove⟩

theorem forall_mem_ingressRequirements {ingress : Ingress} :
    (∀ r ∈ ingressRequirements ingress, r.holds = true) ↔
      ingress.path.toList.head? = some '/' ∧
        ∀ host, ingress.host = some host → '/' ∉ host.toList := by
  cases hhost : ingress.host <;> simp [ingressRequirements, hhost]

theorem storeRequirement_holds_iff {field : String} {store : SecretsStore} :
    (storeRequirement field store).holds = true ↔
      (store.enabled = true → store.backend = .custom →
        ∃ classPath, store.classPath = some classPath ∧ Text.isBlank classPath = false) := by
  cases henabled : store.enabled with
  | false => simp [storeRequirement, henabled]
  | true =>
    by_cases hbackend : store.backend = .custom
    · cases hclass : store.classPath <;> simp [storeRequirement, henabled, hbackend, hclass]
    · simp [storeRequirement, hbackend]

/-- All requirements and a composed environment are the conditions of a user. -/
theorem acceptable_iff {config : Configuration} {release : Release} :
    Acceptable config release ↔
      (∀ r ∈ requirements config release, r.holds = true) ∧ ∃ env, compose config = .ok env := by
  have hrepository : config.image.repository.any (!Text.isBlank ·) = true ↔
      ∃ repository, config.image.repository = some repository ∧
        Text.isBlank repository = false := by
    cases config.image.repository <;> simp
  have hport : (1 ≤ config.service.port && config.service.port ≤ 65535) = true ↔
      1 ≤ config.service.port ∧ config.service.port ≤ 65535 := by
    simp
  simp only [requirements, List.forall_mem_append, forall_mem_labelRequirements,
    forall_mem_map_under, forall_mem_autoscalingRequirements, forall_mem_ingressRequirements,
    List.forall_mem_cons, List.not_mem_nil, false_implies, implies_true,
    storeRequirement_holds_iff, hrepository, hport, decide_eq_true_eq, true_and, and_assoc]
  constructor
  · intro h
    refine ⟨h.name_label, h.name_length, h.namespace_label, h.namespace_length, h.repository,
      h.replicas, h.autoscaling, h.port.1, h.port.2, ?_, ?_, ?_, h.environment⟩
    · exact fun henabled => ⟨h.ingress_path henabled, h.ingress_host henabled⟩
    · exact h.store_class _ (.inl rfl)
    · exact h.store_class _ (.inr rfl)
  · rintro ⟨hname, hlength, hnamespace, hlength', hrepository, hreplicas, hscaling, hlow, hhigh,
      hingress, hstore, hbackup, henvironment⟩
    refine ⟨hname, hlength, hnamespace, hlength', hrepository, hreplicas, hscaling, ⟨hlow, hhigh⟩,
      fun henabled => (hingress henabled).1, fun henabled => (hingress henabled).2, ?_,
      henvironment⟩
    rintro store (rfl | rfl)
    · exact hstore
    · exact hbackup

theorem acceptable_of_render {config : Configuration} {release : Release} {rendered : Rendered}
    (h : render config release = .ok rendered) : Acceptable config release := by
  obtain ⟨hrelease, hconfig, env, henv, -⟩ := render_eq_ok_iff.1 h
  have hverdict : verdict (requirements config release) = .ok () := by
    rw [← checks_eq_verdict, hrelease]
    exact hconfig
  exact acceptable_iff.2 ⟨verdict_eq_ok_iff.1 hverdict, env, henv⟩

theorem exists_render_of_acceptable {config : Configuration} {release : Release}
    (h : Acceptable config release) : ∃ rendered, render config release = .ok rendered := by
  obtain ⟨hall, env, henv⟩ := acceptable_iff.1 h
  rw [← verdict_eq_ok_iff, ← checks_eq_verdict] at hall
  obtain ⟨⟨⟩, hrelease, hconfig⟩ := bind_eq_ok_iff.1 hall
  exact ⟨_, render_eq_ok_iff.2 ⟨hrelease, hconfig, env, henv, rfl⟩⟩

theorem isConfigurationError_of_mem_requirements (config : Configuration) (release : Release) :
    ∀ r ∈ requirements config release, r.failure.isConfigurationError = true := by
  simp [requirements, labelRequirements, autoscalingRequirements, ingressRequirements,
    storeRequirement, Requirement.under, Failure.isConfigurationError]

theorem firstFault_isConfigurationError {config : Configuration} {release : Release}
    {failure : Failure} (h : FirstFault config release failure) :
    failure.isConfigurationError = true := by
  cases h with
  | requirement order =>
    refine isConfigurationError_of_mem_requirements config release _ ?_
    rw [order]
    exact List.mem_append_right _ List.mem_cons_self
  | environment _ here =>
    obtain ⟨source, problem, rfl⟩ := exists_of_compose_eq_error here
    rfl

theorem resolve_eq_error_iff {config : Configuration} {release : Release} {failure : Failure} :
    config.resolve release = .error failure ↔ FirstFault config release failure := by
  rw [resolve_eq_verdict, bind_eq_error_iff, verdict_eq_error_iff]
  constructor
  · rintro (⟨passed, violated, rest, horder, hpassed, hviolated, rfl⟩ | ⟨⟨⟩, hall, hcompose⟩)
    · exact .requirement horder hpassed hviolated
    · exact .environment (verdict_eq_ok_iff.1 hall) (map_eq_error_iff.1 hcompose)
  · intro h
    cases h with
    | requirement order before here =>
      exact .inl ⟨_, _, _, order, before, here, rfl⟩
    | environment before here =>
      exact .inr ⟨(), verdict_eq_ok_iff.2 before, map_eq_error_iff.2 here⟩

/-- A render succeeds exactly under the conditions, and otherwise fails with the fault of
the configuration that comes first. -/
theorem render_iff_acceptable (config : Configuration) (release : Release) :
    ((∃ rendered, render config release = .ok rendered) ↔ Acceptable config release) ∧
      ∀ failure, render config release = .error failure ↔
        FirstFault config release failure ∧ failure.isConfigurationError = true ∧
          failure.exitCode = 2 := by
  constructor
  · rw [acceptable_iff, ← verdict_eq_ok_iff]
    unfold render
    rw [resolve_eq_verdict]
    constructor
    · rintro ⟨rendered, h⟩
      obtain ⟨plan, hplan, -⟩ := map_eq_ok_iff.1 h
      obtain ⟨⟨⟩, hverdict, henv⟩ := bind_eq_ok_iff.1 hplan
      obtain ⟨env, henv, -⟩ := map_eq_ok_iff.1 henv
      exact ⟨hverdict, env, henv⟩
    · rintro ⟨hverdict, env, henv⟩
      exact ⟨_, map_eq_ok_iff.2 ⟨_, bind_eq_ok_iff.2
        ⟨(), hverdict, map_eq_ok_iff.2 ⟨env, henv, rfl⟩⟩, rfl⟩⟩
  · intro failure
    unfold render
    rw [map_eq_error_iff, resolve_eq_error_iff]
    constructor
    · intro h
      have herror := firstFault_isConfigurationError h
      exact ⟨h, herror, if_pos herror⟩
    · exact And.left

end ServerManifests
