import ServerManifests.Proofs.Render.Acceptance
import ServerManifests.Proofs.Render.References

/-!
Who owns the count of replicas. Either the deployment states it, or there is an
autoscaler that leaves it something to do: its bounds are in order and it has at least
one metric. The metrics are read off the written tree, where an empty list of them would
be missing.
-/
namespace ServerManifests

open Manifest Plan
open ServerManifests.Configuration (Autoscaling)

namespace Manifest

/-- The metrics for a target: one that states it if it is above zero, and else none. -/
inductive Measures (resource : String) : Option Int32 → List Json → Prop
  | target {percentage : Int32} {metric : Json} (above : 0 < percentage)
      (name : metric.at? ["resource", "name"] = some (.text resource))
      (kind : metric.at? ["resource", "target", "type"] = some (.text "Utilization"))
      (utilization : metric.at? ["resource", "target", "averageUtilization"] =
        some (.int percentage.toInt)) :
      Measures resource (some percentage) [metric]
  | absent {target : Option Int32}
      (low : ∀ percentage, target = some percentage → percentage ≤ 0) :
      Measures resource target []

/-- A written autoscaler with the configured bounds and targets, which it can work with. -/
structure Scales (autoscaling : Autoscaling) (tree : Json) : Prop where
  minimum : tree.at? ["spec", "minReplicas"] = some (.int autoscaling.minReplicas.toInt)
  maximum : tree.at? ["spec", "maxReplicas"] = some (.int autoscaling.maxReplicas.toInt)
  bounds : 1 ≤ autoscaling.minReplicas ∧ autoscaling.minReplicas ≤ autoscaling.maxReplicas
  /-- The metric for the processor stands before the one for the memory. -/
  metrics : ∃ cpu memory, tree.at? ["spec", "metrics"] = some (.list (cpu ++ memory)) ∧
    cpu ++ memory ≠ [] ∧ Measures "cpu" autoscaling.targetCpu cpu ∧
    Measures "memory" autoscaling.targetMemory memory

end Manifest

/-- One party owns the count of replicas. -/
structure Bundle.Scaled (config : Configuration) (bundle : Bundle) : Prop where
  printed : bundle.IsPrinted
  owner : bundle.at? .deployment ["spec", "replicas"] = none ↔
    .autoscaler ∈ bundle.documents.map (·.kind)
  stated : ∀ count, bundle.at? .deployment ["spec", "replicas"] = some count →
    ∃ n : Int, count = .int n ∧ 1 ≤ n ∧
      n = if config.database.isManaged then config.replicaCount.toInt else 1
  scales : ∀ tree, bundle.tree? .autoscaler = some tree → Scales config.autoscaling tree

namespace Manifest

theorem Deployment.at?_replicas (deployment : Deployment) :
    deployment.toJson.at? ["spec", "replicas"] = deployment.replicas.map (.int ·.toInt) := by
  rw [Deployment.toJson, at?_spec, Json.at?_ofGiven_first (by simp)]
  cases deployment.replicas <;> rfl

theorem Autoscaler.at?_metrics {autoscaler : Autoscaler} (h : autoscaler.metrics ≠ []) :
    autoscaler.toJson.at? ["spec", "metrics"] =
      some (.list (autoscaler.metrics.map Metric.toJson)) := by
  simp [Autoscaler.toJson, Json.unlessEmpty, h]

theorem measures_metric (resource : String) (target : Option Int32) :
    Measures resource target ((Autoscaler.metric resource target).map Metric.toJson) := by
  cases target with
  | none => exact .absent fun percentage h => nomatch h
  | some percentage =>
    unfold Autoscaler.metric
    by_cases habove : 0 < percentage
    · rw [Option.filter_some_pos (by simpa using habove)]
      exact .target habove rfl rfl rfl
    · rw [Option.filter_some_neg (by simpa using habove)]
      refine .absent fun percentage' h => ?_
      obtain rfl := Option.some.inj h
      exact Int32.not_lt.1 habove

theorem metric_ne_nil {resource : String} {percentage : Int32} (h : 0 < percentage) :
    Autoscaler.metric resource (some percentage) ≠ [] := by
  unfold Autoscaler.metric
  rw [Option.filter_some_pos (by simpa using h)]
  exact List.cons_ne_nil _ _

/-- A target above zero is enough for a metric. -/
theorem metrics_ne_nil {autoscaling : Autoscaling} (h : autoscaling.Workable) :
    Autoscaler.metric "cpu" autoscaling.targetCpu ++
      Autoscaler.metric "memory" autoscaling.targetMemory ≠ [] := by
  obtain ⟨percentage, hgiven | hgiven, habove⟩ := h.target_pos
  · rw [hgiven]
    exact List.append_ne_nil_of_left_ne_nil (metric_ne_nil habove) _
  · rw [hgiven]
    exact List.append_ne_nil_of_right_ne_nil _ (metric_ne_nil habove)

end Manifest

theorem scaled_of_plan {config : Configuration} {release : Release} (env : EnvironmentList)
    (h : Acceptable config release) :
    (Bundle.of (.ofEnvironment config release env)).Scaled config := by
  have hreplicas : (Bundle.of (.ofEnvironment config release env)).at? .deployment
      ["spec", "replicas"] = (Plan.replicas config).map (.int ·.toInt) := by
    rw [Bundle.at?_deployment, Deployment.at?_replicas]
    rfl
  constructor
  case printed => exact Bundle.isPrinted _
  case owner =>
    rw [hreplicas, documents_kind_of]
    cases hmanaged : config.database.isManaged <;>
      cases hscaled : config.autoscaling.enabled <;>
        simp [Plan.replicas, kinds, hmanaged, hscaled]
  case stated =>
    intro count hcount
    rw [hreplicas] at hcount
    obtain ⟨n, hn, rfl⟩ := Option.map_eq_some_iff.1 hcount
    unfold Plan.replicas at hn
    cases hmanaged : config.database.isManaged with
    | false =>
      rw [hmanaged] at hn
      obtain rfl := Option.some.inj hn
      exact ⟨1, rfl, by decide, rfl⟩
    | true =>
      rw [hmanaged] at hn
      obtain ⟨-, hn⟩ := Option.ite_none_left_eq_some.1 hn
      obtain rfl := Option.some.inj hn
      exact ⟨_, rfl, Int32.le_iff_toInt_le.1 h.replicas, rfl⟩
  case scales =>
    intro tree htree
    rw [Bundle.tree?_eq] at htree
    obtain ⟨scaler, hscaler, rfl⟩ := Option.map_eq_some_iff.1 htree
    obtain ⟨autoscaling, hautoscaling, rfl⟩ := Option.map_eq_some_iff.1 hscaler
    obtain ⟨hscaled, hautoscaling⟩ := Option.ite_none_right_eq_some.1 hautoscaling
    obtain rfl := Option.some.inj hautoscaling
    have hworkable := h.autoscaling (Bool.and_eq_true_iff.1 hscaled).2
    constructor
    case minimum => simp [Autoscaler.toJson]
    case maximum => simp [Autoscaler.toJson]
    case bounds => exact ⟨hworkable.minimum, hworkable.maximum⟩
    case metrics =>
      have hmetrics := metrics_ne_nil hworkable
      refine ⟨_, _, ?_, ?_, measures_metric "cpu" _, measures_metric "memory" _⟩
      · rw [Autoscaler.at?_metrics hmetrics, List.map_append]
      · rw [← List.map_append]
        exact fun hnil => hmetrics (List.map_eq_nil_iff.1 hnil)

/-- In every render the deployment or an autoscaler owns the count of replicas, and
whoever owns it keeps at least one running. -/
theorem render_has_one_owner_of_replicas (config : Configuration) (release : Release)
    (rendered : Rendered) (h : render config release = .ok rendered) :
    rendered.bundle.Scaled config := by
  have hacceptable := acceptable_of_render h
  obtain ⟨-, -, env, -, rfl⟩ := render_eq_ok_iff.1 h
  exact scaled_of_plan env hacceptable

/-- A deployment whose target for the processor is zero. -/
def Configuration.scaledByMemory : Configuration where
  database := { url := some "mysql://a" }
  autoscaling := { enabled := true, minReplicas := 2, targetCpu := some 0, targetMemory := some 70 }

/-- The metric for the memory is the only one. -/
theorem render_has_one_owner_of_replicas_of_memory :
    ∃ rendered, render .scaledByMemory {} = .ok rendered ∧
      rendered.bundle.Scaled .scaledByMemory ∧
      rendered.bundle.at? .deployment ["spec", "replicas"] = none ∧
      rendered.bundle.at? .autoscaler ["spec", "metrics", .only, "resource", "name"] =
        some (.text "memory") := by
  refine ⟨_, rfl, ?_, ?_, ?_⟩
  · exact render_has_one_owner_of_replicas .scaledByMemory {} _ rfl
  · rfl
  · rfl

end ServerManifests
