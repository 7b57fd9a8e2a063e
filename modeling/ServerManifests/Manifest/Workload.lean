import ServerManifests.Manifest.Metadata

/-!
The deployment of the server: its pods, the container in them and the service account
that they run as. The checksum of the credentials stands in the pod's annotations, so that
new credentials replace the pods.
-/
namespace ServerManifests.Manifest

open Environment (Entry)

structure ServiceAccount where
  metadata : Metadata

namespace ServiceAccount

/-- The service account, where one is to be created. -/
def of? (plan : DeploymentPlan) : Option ServiceAccount :=
  let account := plan.config.serviceAccount
  if account.create then
    some ⟨{ Metadata.of plan plan.names.serviceAccount with annotations := account.annotations }⟩
  else none

def toJson (account : ServiceAccount) : Json :=
  manifestJson "v1" "ServiceAccount" account.metadata []

end ServiceAccount

structure ContainerPort where
  name : String
  number : Int

/-- A request to a named port that a healthy server answers. -/
structure Probe where
  path : String
  port : String

structure Container where
  image : String
  pullPolicy : String
  environment : List Entry
  /-- The secret whose keys all become variables. -/
  secretName : String
  ports : List ContainerPort
  livenessProbe : Probe
  readinessProbe : Probe
  resources : Option Json
  securityContext : Option Json

structure PodTemplate where
  annotations : TextMap String
  labels : TextMap String
  serviceAccountName : String
  container : Container
  imagePullSecrets : List Json
  nodeSelector : TextMap String
  securityContext : Option Json
  affinity : Option Json
  tolerations : List Json

structure Deployment where
  metadata : Metadata
  replicas : Option Int32
  selector : TextMap String
  template : PodTemplate

def checksumAnnotation : String := "checksum/secret"

def containerName : String := "zenml"

def Probe.health : Probe := ⟨"/health", portName⟩

def Container.of (plan : DeploymentPlan) : Container where
  image := plan.image
  pullPolicy := plan.config.image.pullPolicy
  environment := plan.environment.entries
  secretName := plan.names.fullname
  ports := [⟨portName, containerPort⟩]
  livenessProbe := .health
  readinessProbe := .health
  resources := plan.config.resources
  securityContext := plan.config.securityContext

/-- The checksum wins over an annotation of that name. -/
def PodTemplate.of (plan : DeploymentPlan) (checksum : String) : PodTemplate where
  annotations := plan.config.podAnnotations.insert checksumAnnotation checksum
  labels := selectorLabels plan
  serviceAccountName := plan.names.serviceAccount
  container := .of plan
  imagePullSecrets := plan.config.imagePullSecrets
  nodeSelector := plan.config.nodeSelector
  securityContext := plan.config.podSecurityContext
  affinity := plan.config.affinity
  tolerations := plan.config.tolerations

def Deployment.of (plan : DeploymentPlan) (checksum : String) : Deployment where
  metadata := .of plan plan.names.fullname
  replicas := plan.replicas
  selector := selectorLabels plan
  template := .of plan checksum

def Probe.toJson (probe : Probe) : Json :=
  .object [("httpGet", .object [("path", .text probe.path), ("port", .text probe.port)])]

def ContainerPort.toJson (port : ContainerPort) : Json :=
  .object [
    ("containerPort", .int port.number),
    ("name", .text port.name),
    ("protocol", .text protocol)]

def variableJson (entry : Entry) : Json :=
  .object [("name", .text entry.name), ("value", .text entry.value)]

def Container.toJson (container : Container) : Json :=
  .ofGiven [
    ("env", some (.list (container.environment.map variableJson))),
    ("envFrom", some (.list [.object [
      ("secretRef", .object [("name", .text container.secretName)])]])),
    ("image", some (.text container.image)),
    ("imagePullPolicy", some (.text container.pullPolicy)),
    ("livenessProbe", some container.livenessProbe.toJson),
    ("name", some (.text containerName)),
    ("ports", some (.list (container.ports.map ContainerPort.toJson))),
    ("readinessProbe", some container.readinessProbe.toJson),
    ("resources", container.resources),
    ("securityContext", container.securityContext)]

def PodTemplate.toJson (template : PodTemplate) : Json :=
  .object [
    ("metadata", .ofGiven [
      ("annotations", template.annotations.unlessEmpty),
      ("labels", some template.labels.toJson)]),
    ("spec", .ofGiven [
      ("affinity", template.affinity),
      ("containers", some (.list [template.container.toJson])),
      ("imagePullSecrets", Json.unlessEmpty template.imagePullSecrets),
      ("nodeSelector", template.nodeSelector.unlessEmpty),
      ("securityContext", template.securityContext),
      ("serviceAccountName", some (.text template.serviceAccountName)),
      ("tolerations", Json.unlessEmpty template.tolerations)])]

def Deployment.toJson (deployment : Deployment) : Json :=
  manifestJson "apps/v1" "Deployment" deployment.metadata [
    ("spec", some (.ofGiven [
      ("replicas", deployment.replicas.map fun n => .int n.toInt),
      ("selector", some (.object [("matchLabels", deployment.selector.toJson)])),
      ("template", some deployment.template.toJson)]))]

end ServerManifests.Manifest
