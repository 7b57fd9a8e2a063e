import ServerManifests.Environment.Compose
import ServerManifests.Plan.Checks

/-!
The plan of a deployment: a checked configuration with every conditional value
decided. An external database is what several replicas need; without one there is
one replica, and with one the count is given or left to an autoscaler.
-/
namespace ServerManifests

open ServerManifests.Configuration

namespace Plan

/-- The count of replicas, unless an autoscaler owns it. -/
def replicas (config : Configuration) : Option Int32 :=
  if !config.database.isManaged then some 1
  else if config.autoscaling.enabled then none
  else some config.replicaCount

/-- The autoscaler, where it owns the count of replicas. -/
def autoscaling (config : Configuration) : Option Autoscaling :=
  if config.database.isManaged && config.autoscaling.enabled then some config.autoscaling else none

def ingressScheme (config : Configuration) : String :=
  if config.ingress.tls.enabled then "https" else "http"

/-- Repository and tag, which is the version of the release if it is not given. -/
def imageReference (config : Configuration) (release : Release) : String :=
  Text.trim (config.image.repository.getD "") ++ ":" ++
    (nonEmpty config.image.tag).getD release.appVersion

end Plan

structure DeploymentPlan where
  config : Configuration
  release : Release
  names : Plan.Names
  image : String
  replicas : Option Int32
  autoscaling : Option Autoscaling
  environment : EnvironmentList

namespace DeploymentPlan

def isManaged (plan : DeploymentPlan) : Bool := plan.config.database.isManaged

end DeploymentPlan

/-- The plan for a configuration and a release, if they can be used. -/
def Configuration.resolve (config : Configuration) (release : Release) :
    Except Failure DeploymentPlan := do
  Plan.checkRelease release
  Plan.checkConfiguration config
  let environment ← Environment.compose config
  return { config, release, environment
           names := .of config release
           image := Plan.imageReference config release
           replicas := Plan.replicas config
           autoscaling := Plan.autoscaling config }

end ServerManifests
