import ServerManifests.Manifest.Metadata

/-!
The autoscaler that owns the count of replicas, where there is one. A target that
is unset or zero gives no metric.
-/
namespace ServerManifests.Manifest

structure Metric where
  resource : String
  averageUtilization : Int32
  deriving DecidableEq

structure Autoscaler where
  metadata : Metadata
  /-- The deployment that is scaled. -/
  target : String
  minReplicas : Int32
  maxReplicas : Int32
  metrics : List Metric

namespace Autoscaler

def metric (resource : String) (target : Option Int32) : List Metric :=
  (target.filter (0 < ·)).toList.map (⟨resource, ·⟩)

def of? (plan : DeploymentPlan) : Option Autoscaler :=
  plan.autoscaling.map fun autoscaling => {
    metadata := .of plan plan.names.fullname
    target := plan.names.fullname
    minReplicas := autoscaling.minReplicas
    maxReplicas := autoscaling.maxReplicas
    metrics := metric "cpu" autoscaling.targetCpu ++ metric "memory" autoscaling.targetMemory }

end Autoscaler

def Metric.toJson (metric : Metric) : Json :=
  .object [
    ("resource", .object [
      ("name", .text metric.resource),
      ("target", .object [
        ("averageUtilization", .int metric.averageUtilization.toInt),
        ("type", .text "Utilization")])]),
    ("type", .text "Resource")]

def Autoscaler.toJson (autoscaler : Autoscaler) : Json :=
  manifestJson "autoscaling/v2" "HorizontalPodAutoscaler" autoscaler.metadata [
    ("spec", some (.ofGiven [
      ("maxReplicas", some (.int autoscaler.maxReplicas.toInt)),
      ("metrics", Json.unlessEmpty (autoscaler.metrics.map Metric.toJson)),
      ("minReplicas", some (.int autoscaler.minReplicas.toInt)),
      ("scaleTargetRef", some (.object [
        ("apiVersion", .text "apps/v1"),
        ("kind", .text "Deployment"),
        ("name", .text autoscaler.target)]))]))]

end ServerManifests.Manifest
