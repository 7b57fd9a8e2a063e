import ServerManifests.Kubernetes.Shape

/-!
The shapes of the blocks of a pod description that configurations may hold.
-/
namespace ServerManifests.Kubernetes

namespace Shape

/-- A field that is written only where it is given. -/
def may (name : String) (shape : Shape) : String × Bool × Shape := (name, false, shape)

/-- A field that is always written. -/
def must (name : String) (shape : Shape) : String × Bool × Shape := (name, true, shape)

def texts : Shape := .list .text

def labels : Shape := .map .text

def labelSelectorRequirement : Shape :=
  .object "LabelSelectorRequirement" [must "key" .text, must "operator" .text, may "values" texts]

def labelSelector : Shape :=
  .object "LabelSelector"
    [may "matchExpressions" (.list labelSelectorRequirement), may "matchLabels" labels]

def nodeSelectorRequirement : Shape :=
  .object "NodeSelectorRequirement" [must "key" .text, must "operator" .text, may "values" texts]

def nodeSelectorTerm : Shape :=
  .object "NodeSelectorTerm"
    [may "matchExpressions" (.list nodeSelectorRequirement),
      may "matchFields" (.list nodeSelectorRequirement)]

def nodeSelector : Shape :=
  .object "NodeSelector" [must "nodeSelectorTerms" (.list nodeSelectorTerm)]

def preferredSchedulingTerm : Shape :=
  .object "PreferredSchedulingTerm" [must "preference" nodeSelectorTerm, must "weight" .int32]

def nodeAffinity : Shape :=
  .object "NodeAffinity"
    [may "preferredDuringSchedulingIgnoredDuringExecution" (.list preferredSchedulingTerm),
      may "requiredDuringSchedulingIgnoredDuringExecution" nodeSelector]

def podAffinityTerm : Shape :=
  .object "PodAffinityTerm"
    [may "labelSelector" labelSelector, may "matchLabelKeys" texts, may "mismatchLabelKeys" texts,
      may "namespaceSelector" labelSelector, may "namespaces" texts, must "topologyKey" .text]

def weightedPodAffinityTerm : Shape :=
  .object "WeightedPodAffinityTerm"
    [must "podAffinityTerm" podAffinityTerm, must "weight" .int32]

def podAffinityNamed (name : String) : Shape :=
  .object name
    [may "preferredDuringSchedulingIgnoredDuringExecution" (.list weightedPodAffinityTerm),
      may "requiredDuringSchedulingIgnoredDuringExecution" (.list podAffinityTerm)]

def affinity : Shape :=
  .object "Affinity"
    [may "nodeAffinity" nodeAffinity, may "podAffinity" (podAffinityNamed "PodAffinity"),
      may "podAntiAffinity" (podAffinityNamed "PodAntiAffinity")]

def localObjectReference : Shape := .object "LocalObjectReference" [must "name" .text]

def appArmorProfile : Shape :=
  .object "AppArmorProfile" [may "localhostProfile" .text, must "type" .text]

def seccompProfile : Shape :=
  .object "SeccompProfile" [may "localhostProfile" .text, must "type" .text]

def seLinuxOptions : Shape :=
  .object "SELinuxOptions" [may "level" .text, may "role" .text, may "type" .text, may "user" .text]

def sysctl : Shape := .object "Sysctl" [must "name" .text, must "value" .text]

def windowsOptions : Shape :=
  .object "WindowsSecurityContextOptions"
    [may "gmsaCredentialSpec" .text, may "gmsaCredentialSpecName" .text, may "hostProcess" .bool,
      may "runAsUserName" .text]

def podSecurityContext : Shape :=
  .object "PodSecurityContext"
    [may "appArmorProfile" appArmorProfile, may "fsGroup" .int64, may "fsGroupChangePolicy" .text,
      may "runAsGroup" .int64, may "runAsNonRoot" .bool, may "runAsUser" .int64,
      may "seLinuxOptions" seLinuxOptions, may "seccompProfile" seccompProfile,
      may "supplementalGroups" (.list .int64), may "supplementalGroupsPolicy" .text,
      may "sysctls" (.list sysctl), may "windowsOptions" windowsOptions]

def capabilities : Shape := .object "Capabilities" [may "add" texts, may "drop" texts]

def securityContext : Shape :=
  .object "SecurityContext"
    [may "allowPrivilegeEscalation" .bool, may "appArmorProfile" appArmorProfile,
      may "capabilities" capabilities, may "privileged" .bool, may "procMount" .text,
      may "readOnlyRootFilesystem" .bool, may "runAsGroup" .int64, may "runAsNonRoot" .bool,
      may "runAsUser" .int64, may "seLinuxOptions" seLinuxOptions,
      may "seccompProfile" seccompProfile, may "windowsOptions" windowsOptions]

def resourceClaim : Shape := .object "ResourceClaim" [must "name" .text, may "request" .text]

def resourceRequirements : Shape :=
  .object "ResourceRequirements"
    [may "claims" (.list resourceClaim), may "limits" labels, may "requests" labels]

def toleration : Shape :=
  .object "Toleration"
    [may "effect" .text, may "key" .text, may "operator" .text, may "tolerationSeconds" .int64,
      may "value" .text]

end Shape

end ServerManifests.Kubernetes
