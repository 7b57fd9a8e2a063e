import ServerManifests.Manifest.Bundle
import ServerManifests.Values.Layers

/-!
A render: the plan of a deployment with its manifests and how an operator reaches the
server once they are applied, as the commands to run. With an ingress there is a url if it
has a host; without one the type of the service decides. Where there is no plan there are
no manifests.
-/
namespace ServerManifests

open Manifest

inductive Access where
  | url (address : String)
  | nodePort (targetNamespace service : String)
  | loadBalancer (targetNamespace service : String) (port : Int32)
  | portForward (targetNamespace selector : String) (localPort : Int32)
  /-- An ingress without a host. -/
  | undetermined
  deriving DecidableEq, Repr

namespace Access

def localPort : Int32 := 8080

def ofIngress (config : Configuration) : Access :=
  match config.ingress.host with
  | some host =>
    if Text.isBlank host then .undetermined
    else .url (Plan.ingressScheme config ++ "://" ++ host ++ config.ingress.path)
  | none => .undetermined

/-- The selector that picks the server's pods. -/
def podSelector (plan : DeploymentPlan) : String :=
  nameLabel ++ "=" ++ plan.names.name ++ "," ++ instanceLabel ++ "=" ++ plan.release.name

def of (plan : DeploymentPlan) : Access :=
  if plan.config.ingress.enabled then ofIngress plan.config
  else
    let targetNamespace := plan.release.targetNamespace
    match plan.config.service.exposure with
    | .nodePort => .nodePort targetNamespace plan.names.fullname
    | .loadBalancer => .loadBalancer targetNamespace plan.names.fullname plan.config.service.port
    | .clusterIP => .portForward targetNamespace (podSelector plan) localPort

def url? : Access → Option String
  | .url address => some address
  | _ => none

def isDetermined : Access → Bool
  | .undetermined => false
  | _ => true

def heading : String := "Get the ZenML server URL by running these commands:"

def number (n : Int32) : String := toString n.toInt

def lines : Access → List String
  | .url address => [heading, "  " ++ address]
  | .nodePort targetNamespace service => [
    heading,
    "  export NODE_PORT=$(kubectl get --namespace " ++ targetNamespace ++
      " -o jsonpath=\"\x7b.spec.ports[0].nodePort\x7d\" services " ++ service ++ ")",
    "  export NODE_IP=$(kubectl get nodes --namespace " ++ targetNamespace ++
      " -o jsonpath=\"\x7b.items[0].status.addresses[0].address\x7d\")",
    "  echo http://$NODE_IP:$NODE_PORT"]
  | .loadBalancer targetNamespace service port => [
    heading,
    "     NOTE: It may take a few minutes for the LoadBalancer IP to be available.",
    "           You can watch the status of it by running 'kubectl get --namespace " ++
      targetNamespace ++ " svc -w " ++ service ++ "'",
    "  export SERVICE_IP=$(kubectl get svc --namespace " ++ targetNamespace ++ " " ++ service ++
      " --template \"\x7b\x7b range (index .status.loadBalancer.ingress 0) \x7d\x7d" ++
      "\x7b\x7b.\x7d\x7d\x7b\x7b end \x7d\x7d\")",
    "  echo http://$SERVICE_IP:" ++ number port]
  | .portForward targetNamespace selector localPort => [
    heading,
    "  export POD_NAME=$(kubectl get pods --namespace " ++ targetNamespace ++ " -l \"" ++ selector ++
      "\" -o jsonpath=\"\x7b.items[0].metadata.name\x7d\")",
    "  export CONTAINER_PORT=$(kubectl get pod --namespace " ++ targetNamespace ++
      " $POD_NAME -o jsonpath=\"\x7b.spec.containers[0].ports[?(@.name=='" ++ portName ++
      "')].containerPort\x7d\")",
    "  echo \"Visit http://127.0.0.1:" ++ number localPort ++ " to use the ZenML server\"",
    "  kubectl --namespace " ++ targetNamespace ++ " port-forward $POD_NAME " ++ number localPort ++
      ":$CONTAINER_PORT"]
  | .undetermined => [
    "The ZenML server URL could not be determined: ingress is enabled but ingress.host is not set."]

def text (access : Access) : String := String.join (access.lines.map (· ++ "\n"))

end Access

structure Rendered where
  plan : DeploymentPlan
  bundle : Bundle
  access : Access

def render (config : Configuration) (release : Release) : Except Failure Rendered :=
  (config.resolve release).map fun plan => ⟨plan, .of plan, .of plan⟩

end ServerManifests
