import ServerManifests.Manifest.Credentials
import ServerManifests.Manifest.Network
import ServerManifests.Manifest.Scaling
import ServerManifests.Manifest.Workload

/-!
All manifests of a deployment and the documents they are written as, in the order
in which they are to be applied.
-/
namespace ServerManifests

open Manifest

namespace Manifest

inductive Kind where
  | serviceAccount
  | secret
  | service
  | deployment
  | autoscaler
  | ingress
  deriving DecidableEq, Repr

def Kind.label : Kind → String
  | .serviceAccount => "ServiceAccount"
  | .secret => "Secret"
  | .service => "Service"
  | .deployment => "Deployment"
  | .autoscaler => "HorizontalPodAutoscaler"
  | .ingress => "Ingress"

def Kind.fileName : Kind → String
  | .serviceAccount => "serviceaccount.yaml"
  | .secret => "secret.yaml"
  | .service => "service.yaml"
  | .deployment => "deployment.yaml"
  | .autoscaler => "hpa.yaml"
  | .ingress => "ingress.yaml"

structure Document where
  kind : Kind
  content : String

end Manifest

structure Bundle where
  serviceAccount : Option ServiceAccount
  secret : Secret
  service : Service
  deployment : Deployment
  autoscaler : Option Autoscaler
  ingress : Option Ingress
  secretChecksum : String

namespace Bundle

def of (plan : DeploymentPlan) : Bundle :=
  let secret := Secret.of plan
  { secret
    serviceAccount := ServiceAccount.of? plan
    service := .of plan
    deployment := .of plan secret.checksum
    autoscaler := Autoscaler.of? plan
    ingress := Ingress.of? plan
    secretChecksum := secret.checksum }

/-- The trees of the manifests. -/
def manifests (bundle : Bundle) : List (Kind × Json) :=
  (bundle.serviceAccount.toList.map fun account => (.serviceAccount, account.toJson)) ++
  [(.secret, bundle.secret.toJson), (.service, bundle.service.toJson),
    (.deployment, bundle.deployment.toJson)] ++
  (bundle.autoscaler.toList.map fun autoscaler => (.autoscaler, autoscaler.toJson)) ++
  (bundle.ingress.toList.map fun ingress => (.ingress, ingress.toJson))

/-- The tree of the manifest of a kind, if there is one. -/
def tree? (bundle : Bundle) (kind : Kind) : Option Json := bundle.manifests.lookup kind

def documents (bundle : Bundle) : List Document :=
  bundle.manifests.map fun (kind, tree) => ⟨kind, Yaml.Printer.print tree⟩

/-- What is read off the trees is what the documents say. -/
structure IsPrinted (bundle : Bundle) : Prop where
  documents : bundle.documents = bundle.manifests.map fun m => ⟨m.1, Yaml.Printer.print m.2⟩
  /-- A kind has a single document, the print of its tree, or neither of the two. -/
  kinds : ∀ kind, bundle.documents.filter (·.kind = kind) =
    (bundle.tree? kind).toList.map fun tree => ⟨kind, Yaml.Printer.print tree⟩

theorem isPrinted (bundle : Bundle) : bundle.IsPrinted where
  documents := rfl
  kinds := by
    intro kind
    unfold Bundle.documents tree? manifests
    cases bundle.serviceAccount <;> cases bundle.autoscaler <;> cases bundle.ingress <;>
      cases kind <;> rfl

def separator : String := "---\n"

/-- All documents in one stream. -/
def stream (bundle : Bundle) : String :=
  String.join (bundle.documents.map fun document => separator ++ document.content)

end Bundle

end ServerManifests
