import ServerManifests.Plan.Checks

/-!
Checks as lists of requirements. A check passes if all its requirements hold, and
otherwise fails with the first one that does not, so a check after another one
has the requirements of both in that order.
-/
namespace ServerManifests.Plan

open ServerManifests.Configuration

/-- A condition, and the failure where it is violated. -/
structure Requirement where
  holds : Bool
  failure : Failure

/-- A requirement that is made under a condition only. -/
def Requirement.under (condition : Bool) (requirement : Requirement) : Requirement :=
  { requirement with holds := !condition || requirement.holds }

/-- The first violated requirement is the failure. -/
def verdict (requirements : List Requirement) : Except Failure Unit :=
  match requirements.find? (!·.holds) with
  | none => .ok ()
  | some violated => .error violated.failure

theorem verdict_eq_ok_iff {requirements : List Requirement} :
    verdict requirements = .ok () ↔ ∀ r ∈ requirements, r.holds = true := by
  unfold verdict
  cases hfind : requirements.find? (!·.holds) with
  | none => simpa using hfind
  | some violated =>
    have hviolated := List.find?_some hfind
    have hmem := List.mem_of_find?_eq_some hfind
    refine iff_of_false (fun h => nomatch h) fun hall => ?_
    simp [hall violated hmem] at hviolated

theorem verdict_eq_error_iff {requirements : List Requirement} {failure : Failure} :
    verdict requirements = .error failure ↔
      ∃ passed violated rest, requirements = passed ++ violated :: rest ∧
        (∀ r ∈ passed, r.holds = true) ∧ violated.holds = false ∧ violated.failure = failure := by
  unfold verdict
  constructor
  · intro h
    cases hfind : requirements.find? (!·.holds) with
    | none => simp [hfind] at h
    | some violated =>
      rw [hfind] at h
      obtain ⟨hviolated, passed, rest, hsplit, hpassed⟩ := List.find?_eq_some_iff_append.1 hfind
      refine ⟨passed, violated, rest, hsplit, ?_, by simpa using hviolated, Except.error.inj h⟩
      intro r hr
      simpa using hpassed r hr
  · rintro ⟨passed, violated, rest, rfl, hpassed, hviolated, rfl⟩
    have hfind : (passed ++ violated :: rest).find? (!·.holds) = some violated := by
      refine List.find?_eq_some_iff_append.2 ⟨by simpa using hviolated, passed, rest, rfl, ?_⟩
      intro r hr
      simpa using hpassed r hr
    rw [hfind]

theorem verdict_append (first second : List Requirement) :
    verdict (first ++ second) = verdict first >>= fun _ => verdict second := by
  unfold verdict
  rw [List.find?_append]
  cases first.find? (!·.holds) with
  | none => rfl
  | some violated => rfl

theorem require_eq_verdict (condition : Bool) (failure : Failure) :
    require condition failure = verdict [⟨condition, failure⟩] := by
  cases condition <;> rfl

theorem verdict_map_under (condition : Bool) (requirements : List Requirement) :
    verdict (requirements.map (.under condition)) =
      if condition then verdict requirements else .ok () := by
  cases condition with
  | false =>
    refine verdict_eq_ok_iff.2 fun r hr => ?_
    obtain ⟨r', -, rfl⟩ := List.mem_map.1 hr
    rfl
  | true =>
    have hsame : requirements.map (.under true) = requirements := by
      refine List.map_id'' (fun r => ?_) requirements
      rfl
    rw [hsame]
    rfl

theorem forall_mem_map_under {condition : Bool} {requirements : List Requirement} :
    (∀ r ∈ requirements.map (Requirement.under condition), r.holds = true) ↔
      (condition = true → ∀ r ∈ requirements, r.holds = true) := by
  rw [← verdict_eq_ok_iff, verdict_map_under]
  cases condition with
  | false => simp
  | true => simpa using verdict_eq_ok_iff

/-- What makes a name a label, in the order of the checks. -/
def labelRequirements (field value : String) (limit : Nat) : List Requirement := [
  ⟨!value.isEmpty, .missingField field⟩,
  ⟨value.utf8ByteSize ≤ limit, .invalid (.labelTooLong field value limit)⟩,
  ⟨value.toList.all isLabelChar, .invalid (.labelCharacters field value)⟩,
  ⟨value.toList.head?.any isLabelEnd && value.toList.getLast?.any isLabelEnd,
    .invalid (.labelEnds field value)⟩]

def autoscalingRequirements (autoscaling : Autoscaling) : List Requirement := [
  ⟨1 ≤ autoscaling.minReplicas, .invalid (.tooLowMinimum autoscaling.minReplicas)⟩,
  ⟨autoscaling.minReplicas ≤ autoscaling.maxReplicas,
    .invalid (.maximumBelowMinimum autoscaling.maxReplicas autoscaling.minReplicas)⟩,
  ⟨autoscaling.targetCpu.all (0 ≤ ·), .invalid (.negativeTarget cpuTarget)⟩,
  ⟨autoscaling.targetMemory.all (0 ≤ ·), .invalid (.negativeTarget memoryTarget)⟩,
  ⟨autoscaling.targetCpu.any (0 < ·) || autoscaling.targetMemory.any (0 < ·),
    .invalid .noTarget⟩]

def ingressRequirements (ingress : Ingress) : List Requirement := [
  ⟨ingress.path.toList.head? = some '/', .invalid (.relativePath ingress.path)⟩,
  ⟨ingress.host.all (!·.toList.contains '/'),
    .invalid (.hostWithSlash (ingress.host.getD ""))⟩]

def storeRequirement (field : String) (store : SecretsStore) : Requirement :=
  ⟨!(store.enabled && store.backend = .custom) || store.classPath.any (!Text.isBlank ·),
    .missingField (field ++ ".classPath")⟩

/-- All requirements but the one that the environment can be composed, in order. -/
def requirements (config : Configuration) (release : Release) : List Requirement :=
  labelRequirements "release.name" release.name maxReleaseNameLength ++
  labelRequirements "release.namespace" release.targetNamespace maxNamespaceLength ++
  [⟨config.image.repository.any (!Text.isBlank ·), .missingField "image.repository"⟩,
    ⟨1 ≤ config.replicaCount, .invalid (.tooFewReplicas config.replicaCount)⟩] ++
  (autoscalingRequirements config.autoscaling).map (.under config.autoscaling.enabled) ++
  [⟨1 ≤ config.service.port && config.service.port ≤ 65535,
    .invalid (.portOutOfRange config.service.port)⟩] ++
  (ingressRequirements config.ingress).map (.under config.ingress.enabled) ++
  [storeRequirement "secretsStore" config.secretsStore,
    storeRequirement "backupSecretsStore" config.backupSecretsStore]

theorem checkLabel_eq_verdict (field value : String) (limit : Nat) :
    checkLabel field value limit = verdict (labelRequirements field value limit) := by
  unfold checkLabel
  simp only [require_eq_verdict, ← verdict_append]
  rfl

theorem checkAutoscaling_eq_verdict (autoscaling : Autoscaling) :
    checkAutoscaling autoscaling = verdict (autoscalingRequirements autoscaling) := by
  unfold checkAutoscaling checkTarget
  simp only [require_eq_verdict, ← verdict_append]
  rfl

theorem checkIngress_eq_verdict (ingress : Ingress) :
    checkIngress ingress =
      verdict ((ingressRequirements ingress).map (.under ingress.enabled)) := by
  rw [verdict_map_under]
  unfold checkIngress
  congr 1
  rw [require_eq_verdict]
  refine Eq.trans ?_ (verdict_append [_] [_]).symm
  congr 1
  funext _
  cases ingress.host with
  | none => rfl
  | some host => exact require_eq_verdict ..

/-- The checks of a release and a configuration are its requirements. -/
theorem checks_eq_verdict (config : Configuration) (release : Release) :
    (checkRelease release >>= fun _ => checkConfiguration config) =
      verdict (requirements config release) := by
  have hscaling : (if config.autoscaling.enabled then checkAutoscaling config.autoscaling
      else pure ()) = verdict ((autoscalingRequirements config.autoscaling).map
        (.under config.autoscaling.enabled)) := by
    rw [verdict_map_under, checkAutoscaling_eq_verdict]
    rfl
  unfold checkRelease checkConfiguration checkImage checkReplicas checkService checkStore
  simp only [hscaling, checkLabel_eq_verdict, checkIngress_eq_verdict, require_eq_verdict,
    ← verdict_append]
  unfold requirements
  simp only [List.append_assoc]
  rfl

end ServerManifests.Plan
