import ServerManifests.Manifest.Metadata

/-!
How the server is reached: the service in front of its pods, and the ingress that
routes a path to the service.
-/
namespace ServerManifests.Manifest

open ServerManifests.Configuration (Exposure)

structure Service where
  metadata : Metadata
  selector : TextMap String
  exposure : Exposure
  port : Int32
  portName : String
  /-- The name of the container port that receives the traffic. -/
  targetPort : String

namespace Service

def of (plan : DeploymentPlan) : Service where
  metadata := .of plan plan.names.fullname
  selector := selectorLabels plan
  exposure := plan.config.service.exposure
  port := plan.config.service.port
  portName := Manifest.portName
  targetPort := Manifest.portName

def toJson (service : Service) : Json :=
  manifestJson "v1" "Service" service.metadata [
    ("spec", some (.object [
      ("ports", .list [.object [
        ("name", .text service.portName),
        ("port", .int service.port.toInt),
        ("protocol", .text protocol),
        ("targetPort", .text service.targetPort)]]),
      ("selector", service.selector.toJson),
      ("type", .text service.exposure.label)]))]

end Service

structure IngressTls where
  host : Option String
  secretName : String

structure Ingress where
  metadata : Metadata
  className : Option String
  tls : Option IngressTls
  host : Option String
  path : String
  backend : String
  backendPort : Int32

namespace IngressTls

def toJson (tls : IngressTls) : Json :=
  .ofGiven [
    ("hosts", tls.host.map fun host => .list [.text host]),
    ("secretName", some (.text tls.secretName))]

end IngressTls

namespace Ingress

/-- The ingress, where it is enabled. -/
def of? (plan : DeploymentPlan) : Option Ingress :=
  let ingress := plan.config.ingress
  if ingress.enabled then
    some {
      metadata := { Metadata.of plan plan.names.fullname with annotations := ingress.annotations }
      className := ingress.className
      tls := if ingress.tls.enabled then some ⟨ingress.host, ingress.tls.secretName⟩ else none
      host := ingress.host
      path := ingress.path
      backend := plan.names.fullname
      backendPort := plan.config.service.port }
  else none

def backendJson (ingress : Ingress) : Json :=
  .object [("service", .object [
    ("name", .text ingress.backend),
    ("port", .object [("number", .int ingress.backendPort.toInt)])])]

def ruleJson (ingress : Ingress) : Json :=
  .ofGiven [
    ("host", ingress.host.map .text),
    ("http", some (.object [("paths", .list [.object [
      ("backend", ingress.backendJson),
      ("path", .text ingress.path),
      ("pathType", .text "Prefix")]])]))]

def toJson (ingress : Ingress) : Json :=
  manifestJson "networking.k8s.io/v1" "Ingress" ingress.metadata [
    ("spec", some (.ofGiven [
      ("ingressClassName", ingress.className.map .text),
      ("rules", some (.list [ingress.ruleJson])),
      ("tls", ingress.tls.map fun tls => .list [tls.toJson])]))]

end Ingress

end ServerManifests.Manifest
