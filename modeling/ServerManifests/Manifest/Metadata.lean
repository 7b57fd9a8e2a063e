import ServerManifests.Plan.Basic

/-!
What all manifests share: names and labels. The selector labels tell the server's
pods from others and are part of the labels of every manifest.
-/
namespace ServerManifests

/-- An object of the members that are given. -/
def Json.ofGiven (members : List (String × Option Json)) : Json :=
  .object (members.filterMap fun member => member.2.map (member.1, ·))

def TextMap.toJson (m : TextMap String) : Json :=
  .object (m.entries.map fun e => (e.1, .text e.2))

/-- An empty map is left out. -/
def TextMap.unlessEmpty (m : TextMap String) : Option Json :=
  if m.isEmpty then none else some m.toJson

/-- An empty list is left out. -/
def Json.unlessEmpty (items : List Json) : Option Json :=
  if items.isEmpty then none else some (.list items)

namespace Manifest

def managedBy : String := "zenml-manifests"

/-- The name of the port on which the server listens. -/
def portName : String := "http"

def containerPort : Int := 8080

def protocol : String := "TCP"

def nameLabel : String := "app.kubernetes.io/name"

def instanceLabel : String := "app.kubernetes.io/instance"

def selectorLabels (plan : DeploymentPlan) : TextMap String :=
  .ofList [(nameLabel, plan.names.name), (instanceLabel, plan.release.name)]

def standardLabels (plan : DeploymentPlan) : TextMap String :=
  (selectorLabels plan).insert "helm.sh/chart" plan.release.chartLabel
    |>.insert "app.kubernetes.io/version" plan.release.appVersion
    |>.insert "app.kubernetes.io/managed-by" managedBy

structure Metadata where
  name : String
  targetNamespace : String
  labels : TextMap String
  annotations : TextMap String := {}

namespace Metadata

def of (plan : DeploymentPlan) (name : String) : Metadata where
  name
  targetNamespace := plan.release.targetNamespace
  labels := standardLabels plan

def toJson (metadata : Metadata) : Json :=
  .ofGiven [
    ("annotations", metadata.annotations.unlessEmpty),
    ("labels", some metadata.labels.toJson),
    ("name", some (.text metadata.name)),
    ("namespace", some (.text metadata.targetNamespace))]

end Metadata

/-- A manifest of a kind with its metadata and the rest of its members. -/
def manifestJson (apiVersion kind : String) (metadata : Metadata)
    (more : List (String × Option Json)) : Json :=
  .ofGiven ([
    ("apiVersion", some (.text apiVersion)),
    ("kind", some (.text kind)),
    ("metadata", some metadata.toJson)] ++ more)

end Manifest

end ServerManifests
