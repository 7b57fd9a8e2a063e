import ServerManifests.Proofs.Render.References

/-!
The access instructions against the manifests. The instructions are made from the
configuration; what they name is read off the written trees of the same bundle.
-/
namespace ServerManifests

open Manifest
open ServerManifests.Configuration (Exposure)

namespace Manifest

/-- The path to the rule of an ingress. -/
def rulePath (rest : List Json.Step) : List Json.Step := "spec" :: "rules" :: .only :: rest

end Manifest

/-- There is no ingress, and the service is one of a type in a namespace. -/
structure Bundle.Exposes (exposure : Exposure) (targetNamespace : String) (bundle : Bundle) :
    Prop where
  ingress : bundle.tree? .ingress = none
  type : bundle.at? .service ["spec", "type"] = some (.text exposure.label)
  targetNamespace : bundle.at? .service ["metadata", "namespace"] = some (.text targetNamespace)

namespace Access

/-- A line of the text of the instructions. -/
def HasLine (access : Access) (line : String) : Prop :=
  ∃ before after : List String,
    access.text = String.join ((before ++ line :: after).map (· ++ "\n"))

/-- The line that looks up the port of a name in the server's pod. -/
def portLookup (targetNamespace port : String) : String :=
  "  export CONTAINER_PORT=$(kubectl get pod --namespace " ++ targetNamespace ++
    " $POD_NAME -o jsonpath=\"\x7b.spec.containers[0].ports[?(@.name=='" ++ port ++
    "')].containerPort\x7d\")"

theorem hasLine_of_mem {access : Access} {line : String} (h : line ∈ access.lines) :
    access.HasLine line := by
  obtain ⟨before, after, hlines⟩ := List.append_of_mem h
  exact ⟨before, after, by rw [text, hlines]⟩

/-- A list of labels as a selector. -/
def selectorText (labels : List (String × String)) : String :=
  ",".intercalate (labels.map fun (name, value) => name ++ "=" ++ value)

/-- The instructions describe the manifests of a bundle. -/
inductive Describes (bundle : Bundle) : Access → Prop where
  /-- The address is that of the only rule of the ingress, which has a TLS block for its
  host exactly if the scheme is the secure one. -/
  | url {host path : String} {tls : Option Json}
      (hhost : bundle.at? .ingress (rulePath ["host"]) = some (.text host))
      (hpath : bundle.at? .ingress (rulePath ["http", "paths", .only, "path"]) = some (.text path))
      (htls : bundle.at? .ingress ["spec", "tls"] = tls)
      (hhosts : ∀ block ∈ tls, block.at? [.only, "hosts"] = some (.list [.text host])) :
      Describes bundle (.url ((if tls.isSome then "https" else "http") ++ "://" ++ host ++ path))
  | nodePort {targetNamespace service : String}
      (hservice : bundle.Exposes .nodePort targetNamespace)
      (hname : bundle.at? .service metadataName = some (.text service)) :
      Describes bundle (.nodePort targetNamespace service)
  | loadBalancer {targetNamespace service : String} {port : Int32}
      (hservice : bundle.Exposes .loadBalancer targetNamespace)
      (hname : bundle.at? .service metadataName = some (.text service))
      (hport : bundle.at? .service ["spec", "ports", .only, "port"] = some (.int port.toInt)) :
      Describes bundle (.loadBalancer targetNamespace service port)
  /-- The selector has the labels of the pods, in an order of its own. -/
  | portForward {targetNamespace port : String} {labels : TextMap String}
      {listed : List (String × String)} {localPort : Int32}
      (hservice : bundle.Exposes .clusterIP targetNamespace)
      (hlabels : bundle.at? .deployment ["spec", "template", "metadata", "labels"] =
        some labels.toJson)
      (hlisted : listed.Perm labels.entries)
      (hport : bundle.at? .deployment (containerPath ["ports", .only, "name"]) =
        some (.text port))
      (hlookup : (Access.portForward targetNamespace (selectorText listed) localPort).HasLine
        (portLookup targetNamespace port)) :
      Describes bundle (.portForward targetNamespace (selectorText listed) localPort)

end Access

namespace Manifest

theorem Ingress.at?_host (ingress : Ingress) :
    ingress.toJson.at? (rulePath ["host"]) = ingress.host.map .text := by
  simp [rulePath, Ingress.toJson, ruleJson, Json.at?_ofGiven_first]

theorem Ingress.at?_path (ingress : Ingress) :
    ingress.toJson.at? (rulePath ["http", "paths", .only, "path"]) =
      some (.text ingress.path) := by
  simp [rulePath, Ingress.toJson, ruleJson]

theorem Ingress.at?_tls (ingress : Ingress) :
    ingress.toJson.at? ["spec", "tls"] = ingress.tls.map fun tls => .list [tls.toJson] := by
  simp [Ingress.toJson, Json.at?_ofGiven_first]

theorem IngressTls.at?_hosts (tls : IngressTls) :
    tls.toJson.at? ["hosts"] = tls.host.map fun host => .list [.text host] := by
  simp [IngressTls.toJson, Json.at?_ofGiven_first]

end Manifest

theorem entries_selectorLabels (plan : DeploymentPlan) :
    (selectorLabels plan).entries =
      [(instanceLabel, plan.release.name), (nameLabel, plan.names.name)] := by
  have hlt : instanceLabel < nameLabel := by decide
  change TextMap.place instanceLabel _ [(nameLabel, _)] = _
  rw [TextMap.place, if_pos hlt]

theorem exposes_of_plan (plan : DeploymentPlan) (hdisabled : plan.config.ingress.enabled = false) :
    (Bundle.of plan).Exposes plan.config.service.exposure plan.release.targetNamespace := by
  have hingress : (Bundle.of plan).ingress = none := by
    simp [Bundle.of, Ingress.of?, hdisabled]
  have hexposure : (Bundle.of plan).service.exposure = plan.config.service.exposure := rfl
  have hnamespace : (Bundle.of plan).service.metadata.targetNamespace =
      plan.release.targetNamespace := rfl
  constructor
  case ingress => rw [Bundle.tree?_eq, hingress, Option.map_none]
  case type => simp [Service.toJson, hexposure]
  case targetNamespace => simp [Service.toJson, hnamespace]

/-- The ingress of a plan that has one, with its tree. -/
theorem exists_ingress_of (plan : DeploymentPlan) (henabled : plan.config.ingress.enabled = true) :
    ∃ ingress : Ingress, (Bundle.of plan).at? .ingress = ingress.toJson.at? ∧
      ingress.host = plan.config.ingress.host ∧ ingress.path = plan.config.ingress.path ∧
      ingress.tls = if plan.config.ingress.tls.enabled then
        some ⟨plan.config.ingress.host, plan.config.ingress.tls.secretName⟩ else none := by
  obtain ⟨ingress, hingress, hfields⟩ : ∃ ingress, (Bundle.of plan).ingress = some ingress ∧
      ingress.host = plan.config.ingress.host ∧ ingress.path = plan.config.ingress.path ∧
      ingress.tls = if plan.config.ingress.tls.enabled then
        some ⟨plan.config.ingress.host, plan.config.ingress.tls.secretName⟩ else none :=
    ⟨_, if_pos henabled, rfl, rfl, rfl⟩
  refine ⟨ingress, ?_, hfields⟩
  funext path
  rw [Bundle.at?, Bundle.tree?_eq, hingress, Option.map_some, Option.bind_some]

/-- A url is determined by an ingress that has a host. -/
theorem url_describes (plan : DeploymentPlan) {host : String}
    (henabled : plan.config.ingress.enabled = true)
    (hhost : plan.config.ingress.host = some host) :
    Access.Describes (Bundle.of plan)
      (.url (Plan.ingressScheme plan.config ++ "://" ++ host ++ plan.config.ingress.path)) := by
  obtain ⟨ingress, htree, hgivenHost, hgivenPath, hgivenTls⟩ := exists_ingress_of plan henabled
  rw [hhost] at hgivenHost hgivenTls
  have hscheme : Plan.ingressScheme plan.config =
      if (ingress.toJson.at? ["spec", "tls"]).isSome then "https" else "http" := by
    rw [Ingress.at?_tls, hgivenTls, Plan.ingressScheme]
    cases plan.config.ingress.tls.enabled <;> rfl
  rw [hscheme]
  refine .url ?_ ?_ ?_ ?_
  · rw [htree, Ingress.at?_host, hgivenHost, Option.map_some]
  · rw [htree, Ingress.at?_path, hgivenPath]
  · rw [htree]
  · intro block hblock
    rw [Ingress.at?_tls, hgivenTls] at hblock
    obtain ⟨tls, htls, rfl⟩ := Option.map_eq_some_iff.1 hblock
    obtain ⟨-, htls⟩ := Option.ite_none_right_eq_some.1 htls
    obtain rfl := Option.some.inj htls
    rw [Json.at?_only, IngressTls.at?_hosts, Option.map_some]

theorem portForward_describes (plan : DeploymentPlan)
    (hdisabled : plan.config.ingress.enabled = false)
    (hexposure : plan.config.service.exposure = .clusterIP) :
    Access.Describes (Bundle.of plan)
      (.portForward plan.release.targetNamespace (Access.podSelector plan) Access.localPort) := by
  have hselector : Access.podSelector plan = Access.selectorText
      [(nameLabel, plan.names.name), (instanceLabel, plan.release.name)] := by
    simp [Access.podSelector, Access.selectorText, String.append_assoc]
  have hexposes := exposes_of_plan plan hdisabled
  have hlabels : (Bundle.of plan).at? .deployment ["spec", "template", "metadata", "labels"] =
      some (selectorLabels plan).toJson := by
    have hlabels : (Bundle.of plan).deployment.template.labels = selectorLabels plan := rfl
    simp [PodTemplate.toJson, hlabels]
  have hlisted : [(nameLabel, plan.names.name), (instanceLabel, plan.release.name)].Perm
      (selectorLabels plan).entries := by
    -- The text has the name first; in the order of the map the instance comes first.
    rw [entries_selectorLabels]
    exact .swap ..
  have hport : (Bundle.of plan).at? .deployment (containerPath ["ports", .only, "name"]) =
      some (.text portName) := by
    have hports : (Bundle.of plan).deployment.template.container.ports =
        [⟨portName, containerPort⟩] := rfl
    simp [Container.toJson, ContainerPort.toJson, hports]
  rw [hexposure] at hexposes
  rw [hselector]
  refine .portForward hexposes hlabels hlisted hport (Access.hasLine_of_mem ?_)
  exact List.mem_cons_of_mem _ (List.mem_cons_of_mem _ List.mem_cons_self)

theorem describes_of_plan (plan : DeploymentPlan) (h : (Access.of plan).isDetermined = true) :
    (Access.of plan).Describes (Bundle.of plan) := by
  unfold Access.of at h ⊢
  cases henabled : plan.config.ingress.enabled with
  | true =>
    simp only [henabled, if_true, Access.ofIngress] at h ⊢
    cases hhost : plan.config.ingress.host with
    | none => simp [hhost, Access.isDetermined] at h
    | some host =>
      cases hblank : Text.isBlank host with
      | true => simp [hhost, hblank, Access.isDetermined] at h
      | false =>
        simp only [hblank]
        exact url_describes plan henabled hhost
  | false =>
    have hexposes := exposes_of_plan plan henabled
    have hname : (Bundle.of plan).service.metadata.name = plan.names.fullname := rfl
    have hport : (Bundle.of plan).service.port = plan.config.service.port := rfl
    cases hexposure : plan.config.service.exposure with
    | nodePort =>
      rw [hexposure] at hexposes
      exact .nodePort hexposes (by simp [Service.toJson, metadataName, hname])
    | loadBalancer =>
      rw [hexposure] at hexposes
      refine .loadBalancer hexposes ?_ ?_
      · simp [Service.toJson, metadataName, hname]
      · simp [Service.toJson, hport]
    | clusterIP => exact portForward_describes plan henabled hexposure

/-- Access instructions that are determined describe the manifests they come with, as they
are printed. -/
theorem render_describes_access (config : Configuration) (release : Release) (rendered : Rendered)
    (h : render config release = .ok rendered) (hdetermined : rendered.access.isDetermined = true) :
    rendered.access.Describes rendered.bundle ∧ rendered.bundle.IsPrinted := by
  obtain ⟨-, -, env, -, rfl⟩ := render_eq_ok_iff.1 h
  exact ⟨describes_of_plan _ hdetermined, Bundle.isPrinted _⟩

/-- The defaults with an ingress for a path of a host. -/
def Configuration.ofHost : Configuration where
  ingress := { enabled := true, host := some "example.org", path := "/ml", tls.enabled := true }

/-- An ingress gives a url; the defaults give commands that forward a port. -/
theorem render_describes_access_of_host :
    ∃ rendered rendered', render .ofHost {} = .ok rendered ∧ render {} {} = .ok rendered' ∧
      rendered.access = .url "https://example.org/ml" ∧
      rendered.access.Describes rendered.bundle ∧
      rendered'.access = .portForward "default"
        "app.kubernetes.io/name=zenml,app.kubernetes.io/instance=zenml" 8080 ∧
      rendered'.access.Describes rendered'.bundle := by
  refine ⟨_, _, rfl, rfl, by decide +kernel, ?_, by decide +kernel, ?_⟩
  · exact (render_describes_access .ofHost {} _ rfl (by decide +kernel)).1
  · exact (render_describes_access {} {} _ rfl (by decide +kernel)).1

end ServerManifests
