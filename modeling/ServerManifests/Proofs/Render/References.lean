import ServerManifests.Proofs.Json.Path
import ServerManifests.Proofs.Render.Outcome
import ServerManifests.Proofs.TextMap

/-!
The manifests of one deployment refer to each other. A reference is read off the
written tree of one manifest and what it refers to off the tree of another, so
nothing is assumed about how the two are made. The documents are these trees, printed.
-/
namespace ServerManifests

open Manifest

/-- What stands at a path of the manifest of a kind. -/
def Bundle.at? (bundle : Bundle) (kind : Kind) (path : List Json.Step) : Option Json :=
  (bundle.tree? kind).bind (·.at? path)

namespace Manifest

def metadataName : List Json.Step := ["metadata", "name"]

/-- The path to the server's container in its deployment. -/
def containerPath (rest : List Json.Step) : List Json.Step :=
  "spec" :: "template" :: "spec" :: "containers" :: .only :: rest

/-- The path to the service of an ingress. -/
def backendPath (rest : List Json.Step) : List Json.Step :=
  "spec" :: "rules" :: .only :: "http" :: "paths" :: .only :: "backend" :: "service" :: rest

/-- The list of variables of a container as it is written. -/
def writtenVariables (entries : List Environment.Entry) : Json :=
  .list (entries.map fun entry =>
    .object [("name", .text entry.name), ("value", .text entry.value)])

/-- The kinds of manifests for a configuration, in the order of the documents. -/
def kinds (config : Configuration) : List Kind :=
  (if config.serviceAccount.create then [.serviceAccount] else []) ++
  [.secret, .service, .deployment] ++
  (if config.database.isManaged && config.autoscaling.enabled then [.autoscaler] else []) ++
  (if config.ingress.enabled then [.ingress] else [])

end Manifest

/-- What holds of the documents of a bundle as a whole. -/
structure Bundle.Linked (config : Configuration) (release : Release) (bundle : Bundle) :
    Prop where
  printed : bundle.IsPrinted
  documents : bundle.documents.map (·.kind) = kinds config
  fileNames : (bundle.documents.map (·.kind.fileName)).Nodup
  kindNames : ∀ m ∈ bundle.manifests, m.2.at? ["kind"] = some (.text m.1.label)
  namespaces : ∀ m ∈ bundle.manifests,
    m.2.at? ["metadata", "namespace"] = some (.text release.targetNamespace)
  /-- Deployment, pods and service have one selector, which all labels contain. -/
  selector : ∃ selector : TextMap String,
    bundle.at? .deployment ["spec", "selector", "matchLabels"] = some selector.toJson ∧
    bundle.at? .deployment ["spec", "template", "metadata", "labels"] = some selector.toJson ∧
    bundle.at? .service ["spec", "selector"] = some selector.toJson ∧
    ∀ m ∈ bundle.manifests, ∃ labels : TextMap String,
      m.2.at? ["metadata", "labels"] = some labels.toJson ∧ selector.entries ⊆ labels.entries
  secret : ∃ name,
    bundle.at? .deployment (containerPath ["envFrom", .only, "secretRef", "name"]) =
      some (.text name) ∧
    bundle.at? .secret metadataName = some (.text name)
  /-- The service and the probes name a port of the container. -/
  ports : ∃ name declared port,
    bundle.at? .deployment (containerPath ["ports"]) = some (.list declared) ∧
    port ∈ declared ∧ port.at? ["name"] = some (.text name) ∧
    bundle.at? .service ["spec", "ports", .only, "targetPort"] = some (.text name) ∧
    ∀ probe ∈ ["livenessProbe", "readinessProbe"],
      bundle.at? .deployment (containerPath [.member probe, "httpGet", "port"]) =
        some (.text name)
  serviceAccount : ∀ tree, bundle.tree? .serviceAccount = some tree → ∃ name,
    tree.at? metadataName = some (.text name) ∧
    bundle.at? .deployment ["spec", "template", "spec", "serviceAccountName"] = some (.text name)
  autoscaler : ∀ tree, bundle.tree? .autoscaler = some tree → ∃ name,
    tree.at? ["spec", "scaleTargetRef", "name"] = some (.text name) ∧
    tree.at? ["spec", "scaleTargetRef", "kind"] = some (.text Kind.deployment.label) ∧
    bundle.at? .deployment metadataName = some (.text name)
  ingress : ∀ tree, bundle.tree? .ingress = some tree → ∃ name port,
    tree.at? (backendPath ["name"]) = some (.text name) ∧
    tree.at? (backendPath ["port", "number"]) = some (.int port) ∧
    bundle.at? .service metadataName = some (.text name) ∧
    bundle.at? .service ["spec", "ports", .only, "port"] = some (.int port)

theorem Bundle.tree?_eq (bundle : Bundle) (kind : Kind) :
    bundle.tree? kind = match kind with
      | .serviceAccount => bundle.serviceAccount.map (·.toJson)
      | .secret => some bundle.secret.toJson
      | .service => some bundle.service.toJson
      | .deployment => some bundle.deployment.toJson
      | .autoscaler => bundle.autoscaler.map (·.toJson)
      | .ingress => bundle.ingress.map (·.toJson) := by
  unfold tree? manifests
  cases bundle.serviceAccount <;> cases bundle.autoscaler <;> cases bundle.ingress <;>
    cases kind <;> rfl

@[simp] theorem Bundle.at?_secret (bundle : Bundle) (path : List Json.Step) :
    bundle.at? .secret path = bundle.secret.toJson.at? path := by
  rw [at?, tree?_eq, Option.bind_some]

@[simp] theorem Bundle.at?_service (bundle : Bundle) (path : List Json.Step) :
    bundle.at? .service path = bundle.service.toJson.at? path := by
  rw [at?, tree?_eq, Option.bind_some]

@[simp] theorem Bundle.at?_deployment (bundle : Bundle) (path : List Json.Step) :
    bundle.at? .deployment path = bundle.deployment.toJson.at? path := by
  rw [at?, tree?_eq, Option.bind_some]

theorem Bundle.forall_mem_manifests {bundle : Bundle} {p : Kind × Json → Prop} :
    (∀ m ∈ bundle.manifests, p m) ↔
      (∀ account, bundle.serviceAccount = some account → p (.serviceAccount, account.toJson)) ∧
      p (.secret, bundle.secret.toJson) ∧ p (.service, bundle.service.toJson) ∧
      p (.deployment, bundle.deployment.toJson) ∧
      (∀ scaler, bundle.autoscaler = some scaler → p (.autoscaler, scaler.toJson)) ∧
      (∀ ingress, bundle.ingress = some ingress → p (.ingress, ingress.toJson)) := by
  simp [manifests, or_imp, forall_and]

namespace Manifest

variable {plan : DeploymentPlan} {apiVersion kind : String} {metadata : Metadata}
  {more : List (String × Option Json)} {path : List Json.Step}

@[simp] theorem at?_kind :
    (manifestJson apiVersion kind metadata more).at? ["kind"] = some (.text kind) := by
  simp [manifestJson]

@[simp] theorem at?_metadata :
    (manifestJson apiVersion kind metadata more).at? ("metadata" :: path) =
      metadata.toJson.at? path := by
  simp [manifestJson]

@[simp] theorem at?_spec {spec : Json} :
    (manifestJson apiVersion kind metadata [("spec", some spec)]).at? ("spec" :: path) =
      spec.at? path := by
  simp [manifestJson]

@[simp] theorem Metadata.at?_name (metadata : Metadata) :
    metadata.toJson.at? ["name"] = some (.text metadata.name) := by
  simp [Metadata.toJson]

@[simp] theorem Metadata.at?_namespace (metadata : Metadata) :
    metadata.toJson.at? ["namespace"] = some (.text metadata.targetNamespace) := by
  simp [Metadata.toJson]

@[simp] theorem Metadata.at?_labels (metadata : Metadata) :
    metadata.toJson.at? ["labels"] = some metadata.labels.toJson := by
  simp [Metadata.toJson]

@[simp] theorem Deployment.at?_template (deployment : Deployment) :
    deployment.toJson.at? ("spec" :: "template" :: path) =
      deployment.template.toJson.at? path := by
  simp [Deployment.toJson]

@[simp] theorem Deployment.at?_container (deployment : Deployment) :
    deployment.toJson.at? (containerPath path) =
      deployment.template.container.toJson.at? path := by
  simp [containerPath, PodTemplate.toJson]

/-- The container lists each variable with its name and its value. -/
theorem Container.at?_variables (container : Container) :
    container.toJson.at? ["env"] = some (writtenVariables container.environment) := by
  simp [Container.toJson, variableJson, writtenVariables]

@[simp] theorem Container.at?_probe (container : Container) {probe : String}
    (h : probe ∈ ["livenessProbe", "readinessProbe"]) :
    container.toJson.at? [.member probe, "httpGet", "port"] =
      some (.text (if probe = "livenessProbe" then container.livenessProbe.port
        else container.readinessProbe.port)) := by
  rcases List.mem_cons.1 h with rfl | h
  · simp [Container.toJson, Probe.toJson]
  · obtain rfl := List.mem_singleton.1 h
    simp [Container.toJson, Probe.toJson]

@[simp] theorem Ingress.at?_backend (ingress : Ingress) :
    ingress.toJson.at? (backendPath path) = (Json.object [("name", .text ingress.backend),
      ("port", .object [("number", .int ingress.backendPort.toInt)])]).at? path := by
  simp [backendPath, Ingress.toJson, ruleJson, backendJson]

/-- The selector is part of the labels; the labels that are added have other names. -/
theorem selectorLabels_subset (plan : DeploymentPlan) :
    (selectorLabels plan).entries ⊆ (standardLabels plan).entries := by
  intro e he
  have hname : e.1 = nameLabel ∨ e.1 = instanceLabel := by
    rcases TextMap.mem_place he with rfl | he
    · exact .inr rfl
    · rcases TextMap.mem_place he with rfl | he
      · exact .inl rfl
      · exact nomatch he
  have hne (label : String) (hlabel : nameLabel ≠ label ∧ instanceLabel ≠ label) :
      e.1 ≠ label := by
    rcases hname with h | h
    · exact h ▸ hlabel.1
    · exact h ▸ hlabel.2
  refine TextMap.mem_place_of_ne ?_ (hne _ (by decide))
  refine TextMap.mem_place_of_ne ?_ (hne _ (by decide))
  exact TextMap.mem_place_of_ne he (hne _ (by decide))

/-- What the manifests of a plan have in common. -/
theorem forall_mem_manifests_of (plan : DeploymentPlan) :
    ∀ m ∈ (Bundle.of plan).manifests, ∃ apiVersion metadata more,
      m.2 = manifestJson apiVersion m.1.label metadata more ∧
      metadata.targetNamespace = plan.release.targetNamespace ∧
      metadata.labels = standardLabels plan ∧
      metadata.name =
        if m.1 = .serviceAccount then plan.names.serviceAccount else plan.names.fullname := by
  refine Bundle.forall_mem_manifests.2 ⟨?_, ?_, ?_, ?_, ?_, ?_⟩
  · intro account haccount
    obtain ⟨-, haccount⟩ := Option.ite_none_right_eq_some.1 haccount
    obtain rfl := Option.some.inj haccount
    exact ⟨_, _, _, rfl, rfl, rfl, rfl⟩
  · exact ⟨_, _, _, rfl, rfl, rfl, rfl⟩
  · exact ⟨_, _, _, rfl, rfl, rfl, rfl⟩
  · exact ⟨_, _, _, rfl, rfl, rfl, rfl⟩
  · intro scaler hscaler
    obtain ⟨autoscaling, -, rfl⟩ := Option.map_eq_some_iff.1 hscaler
    exact ⟨_, _, _, rfl, rfl, rfl, rfl⟩
  · intro ingress hingress
    obtain ⟨-, hingress⟩ := Option.ite_none_right_eq_some.1 hingress
    obtain rfl := Option.some.inj hingress
    exact ⟨_, _, _, rfl, rfl, rfl, rfl⟩

end Manifest

theorem Bundle.map_kind_documents (bundle : Bundle) :
    bundle.documents.map (·.kind) =
      (bundle.serviceAccount.toList.map fun _ => .serviceAccount) ++
        [.secret, .service, .deployment] ++
        (bundle.autoscaler.toList.map fun _ => .autoscaler) ++
        (bundle.ingress.toList.map fun _ => .ingress) := by
  simp [documents, manifests, Function.comp_def]

theorem fileName_injective : Function.Injective Kind.fileName := by
  intro kind kind' h
  cases kind <;> cases kind' <;> first | rfl | exact absurd h (by decide)

/-- A bundle has one document of a kind at most, so no two go to one file. -/
theorem Bundle.nodup_fileNames (bundle : Bundle) :
    (bundle.documents.map (·.kind.fileName)).Nodup := by
  have hkinds : (bundle.documents.map (·.kind)).Nodup := by
    rw [map_kind_documents]
    cases bundle.serviceAccount <;> cases bundle.autoscaler <;> cases bundle.ingress <;> simp
  have hfiles : ((bundle.documents.map (·.kind)).map Kind.fileName).Nodup := by
    refine List.Pairwise.map _ ?_ hkinds
    intro kind kind' hne heq
    exact hne (fileName_injective heq)
  rwa [List.map_map] at hfiles

theorem documents_kind_of (config : Configuration) (release : Release) (env : EnvironmentList) :
    (Bundle.of (.ofEnvironment config release env)).documents.map (·.kind) = kinds config := by
  rw [Bundle.map_kind_documents]
  unfold kinds
  congr 1
  · congr 1
    · congr 1
      cases hcreate : config.serviceAccount.create <;>
        simp [Bundle.of, ServiceAccount.of?, DeploymentPlan.ofEnvironment, hcreate]
    · cases hscaled : config.database.isManaged && config.autoscaling.enabled <;>
        simp [Bundle.of, Autoscaler.of?, DeploymentPlan.ofEnvironment, Plan.autoscaling, hscaled]
  · cases henabled : config.ingress.enabled <;>
      simp [Bundle.of, Ingress.of?, DeploymentPlan.ofEnvironment, henabled]

section

variable (plan : DeploymentPlan)

/-- Deployment, pods and service have the selector of the plan. -/
theorem selector_linked :
    (Bundle.of plan).at? .deployment ["spec", "selector", "matchLabels"] =
      some (selectorLabels plan).toJson ∧
    (Bundle.of plan).at? .deployment ["spec", "template", "metadata", "labels"] =
      some (selectorLabels plan).toJson ∧
    (Bundle.of plan).at? .service ["spec", "selector"] = some (selectorLabels plan).toJson := by
  have hdeployment : (Bundle.of plan).deployment.selector = selectorLabels plan := rfl
  have hpods : (Bundle.of plan).deployment.template.labels = selectorLabels plan := rfl
  have hservice : (Bundle.of plan).service.selector = selectorLabels plan := rfl
  refine ⟨?_, ?_, ?_⟩
  · simp [Deployment.toJson, hdeployment]
  · simp [PodTemplate.toJson, hpods]
  · simp [Service.toJson, hservice]

/-- The labels of every manifest contain the selector. -/
theorem labels_linked : ∀ m ∈ (Bundle.of plan).manifests, ∃ labels : TextMap String,
    m.2.at? ["metadata", "labels"] = some labels.toJson ∧
      (selectorLabels plan).entries ⊆ labels.entries := by
  intro m hm
  obtain ⟨apiVersion, metadata, more, hjson, -, hlabels, -⟩ := forall_mem_manifests_of plan m hm
  refine ⟨metadata.labels, ?_, ?_⟩
  · rw [hjson, at?_metadata, Metadata.at?_labels]
  · rw [hlabels]
    exact selectorLabels_subset plan

theorem secret_linked : ∃ name,
    (Bundle.of plan).at? .deployment (containerPath ["envFrom", .only, "secretRef", "name"]) =
      some (.text name) ∧
    (Bundle.of plan).at? .secret metadataName = some (.text name) := by
  have hlink : (Bundle.of plan).deployment.template.container.secretName =
      (Bundle.of plan).secret.metadata.name := rfl
  refine ⟨(Bundle.of plan).secret.metadata.name, ?_, ?_⟩
  · simp [Container.toJson, hlink]
  · simp [Secret.toJson, metadataName]

/-- The container declares one port, which service and probes name. -/
theorem ports_linked :
    (Bundle.of plan).at? .deployment (containerPath ["ports"]) =
      some (.list [ContainerPort.toJson ⟨portName, containerPort⟩]) ∧
    (Bundle.of plan).at? .service ["spec", "ports", .only, "targetPort"] =
      some (.text portName) ∧
    ∀ probe ∈ ["livenessProbe", "readinessProbe"],
      (Bundle.of plan).at? .deployment (containerPath [.member probe, "httpGet", "port"]) =
        some (.text portName) := by
  have hports : (Bundle.of plan).deployment.template.container.ports =
      [⟨portName, containerPort⟩] := rfl
  have htarget : (Bundle.of plan).service.targetPort = portName := rfl
  have hlive : (Bundle.of plan).deployment.template.container.livenessProbe.port = portName := rfl
  have hready : (Bundle.of plan).deployment.template.container.readinessProbe.port = portName := rfl
  refine ⟨?_, ?_, ?_⟩
  · simp [Container.toJson, hports]
  · simp [Service.toJson, htarget]
  · intro probe hprobe
    simp [Container.at?_probe _ hprobe, hlive, hready]

theorem serviceAccount_linked {tree : Json}
    (htree : (Bundle.of plan).tree? .serviceAccount = some tree) : ∃ name,
    tree.at? metadataName = some (.text name) ∧
    (Bundle.of plan).at? .deployment ["spec", "template", "spec", "serviceAccountName"] =
      some (.text name) := by
  rw [Bundle.tree?_eq] at htree
  obtain ⟨account, haccount, rfl⟩ := Option.map_eq_some_iff.1 htree
  have hlink : (Bundle.of plan).deployment.template.serviceAccountName =
      account.metadata.name := by
    obtain ⟨-, haccount⟩ := Option.ite_none_right_eq_some.1 haccount
    obtain rfl := Option.some.inj haccount
    rfl
  refine ⟨account.metadata.name, ?_, ?_⟩
  · simp [ServiceAccount.toJson, metadataName]
  · simp [PodTemplate.toJson, hlink]

theorem autoscaler_linked {tree : Json}
    (htree : (Bundle.of plan).tree? .autoscaler = some tree) : ∃ name,
    tree.at? ["spec", "scaleTargetRef", "name"] = some (.text name) ∧
    tree.at? ["spec", "scaleTargetRef", "kind"] = some (.text Kind.deployment.label) ∧
    (Bundle.of plan).at? .deployment metadataName = some (.text name) := by
  rw [Bundle.tree?_eq] at htree
  obtain ⟨scaler, hscaler, rfl⟩ := Option.map_eq_some_iff.1 htree
  have hlink : scaler.target = (Bundle.of plan).deployment.metadata.name := by
    obtain ⟨autoscaling, -, rfl⟩ := Option.map_eq_some_iff.1 hscaler
    rfl
  refine ⟨(Bundle.of plan).deployment.metadata.name, ?_, ?_, ?_⟩
  · simp [Autoscaler.toJson, hlink]
  · simp [Autoscaler.toJson, Kind.label]
  · simp [Deployment.toJson, metadataName]

theorem ingress_linked {tree : Json}
    (htree : (Bundle.of plan).tree? .ingress = some tree) : ∃ name port,
    tree.at? (backendPath ["name"]) = some (.text name) ∧
    tree.at? (backendPath ["port", "number"]) = some (.int port) ∧
    (Bundle.of plan).at? .service metadataName = some (.text name) ∧
    (Bundle.of plan).at? .service ["spec", "ports", .only, "port"] = some (.int port) := by
  rw [Bundle.tree?_eq] at htree
  obtain ⟨ingress, hingress, rfl⟩ := Option.map_eq_some_iff.1 htree
  have hlink : ingress.backend = (Bundle.of plan).service.metadata.name ∧
      ingress.backendPort = (Bundle.of plan).service.port := by
    obtain ⟨-, hingress⟩ := Option.ite_none_right_eq_some.1 hingress
    obtain rfl := Option.some.inj hingress
    exact ⟨rfl, rfl⟩
  refine ⟨(Bundle.of plan).service.metadata.name, (Bundle.of plan).service.port.toInt,
    ?_, ?_, ?_, ?_⟩
  · simp [hlink]
  · simp [hlink]
  · simp [Service.toJson, metadataName]
  · simp [Service.toJson]

end

theorem linked_of_plan (config : Configuration) (release : Release) (env : EnvironmentList) :
    (Bundle.of (.ofEnvironment config release env)).Linked config release := by
  have hshape := forall_mem_manifests_of (.ofEnvironment config release env)
  constructor
  case printed => exact Bundle.isPrinted _
  case documents => exact documents_kind_of config release env
  case fileNames => exact Bundle.nodup_fileNames _
  case kindNames =>
    intro m hm
    obtain ⟨apiVersion, metadata, more, hjson, -⟩ := hshape m hm
    rw [hjson, at?_kind]
  case namespaces =>
    intro m hm
    obtain ⟨apiVersion, metadata, more, hjson, hnamespace, -⟩ := hshape m hm
    rw [hjson, at?_metadata, Metadata.at?_namespace, hnamespace]
    rfl
  case selector =>
    obtain ⟨hdeployment, hpods, hservice⟩ := selector_linked (.ofEnvironment config release env)
    exact ⟨_, hdeployment, hpods, hservice, labels_linked _⟩
  case secret => exact secret_linked _
  case ports =>
    obtain ⟨hdeclared, htarget, hprobes⟩ := ports_linked (.ofEnvironment config release env)
    refine ⟨portName, _, _, hdeclared, List.mem_singleton_self _, ?_, htarget, hprobes⟩
    simp [ContainerPort.toJson]
  case serviceAccount => exact fun _ => serviceAccount_linked _
  case autoscaler => exact fun _ => autoscaler_linked _
  case ingress => exact fun _ => ingress_linked _

/-- The manifests of every render are linked. -/
theorem render_links_manifests (config : Configuration) (release : Release) (rendered : Rendered)
    (h : render config release = .ok rendered) : rendered.bundle.Linked config release := by
  obtain ⟨-, -, env, -, rfl⟩ := render_eq_ok_iff.1 h
  exact linked_of_plan config release env

/-- A deployment with a manifest of every kind. -/
def Configuration.ofEveryKind : Configuration where
  database := { url := some "mysql://a" }
  autoscaling := { enabled := true }
  ingress := { enabled := true }

theorem render_links_manifests_of_every_kind :
    ∃ rendered, render .ofEveryKind {} = .ok rendered ∧
      rendered.bundle.Linked .ofEveryKind {} ∧
      rendered.bundle.documents.map (·.kind) =
        [.serviceAccount, .secret, .service, .deployment, .autoscaler, .ingress] := by
  refine ⟨_, rfl, ?_, ?_⟩
  · exact render_links_manifests .ofEveryKind {} _ rfl
  · rfl

end ServerManifests
