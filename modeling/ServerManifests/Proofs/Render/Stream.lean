import ServerManifests.Proofs.Plan.Names
import ServerManifests.Proofs.Yaml.Printer

/-!
The documents in the stream. No text of a configuration makes a line that is the
marker between documents. Whether the stream can be cut at its lines depends on what
a line is: by the breaks of YAML always, by line feeds alone unless a document before
the last one ends with a text that ends with another break.
-/
namespace ServerManifests

open Manifest Plan Yaml Yaml.Printer

/-- Breaks other than the line feed do not count. -/
def isLineFeed (c : Char) : Bool := c = '\n'

/-- The text that the document of a kind ends with, where it is configured. -/
def endText? (config : Configuration) (release : Release) : Kind → Option String
  | .deployment =>
    if config.tolerations.isEmpty then some (Names.of config release).serviceAccount
    else lastItemText? config.tolerations
  | .autoscaler => some (Names.of config release).fullname
  | .ingress => if config.ingress.tls.enabled then some config.ingress.tls.secretName else none
  | _ => none

/-- Whether the document of a kind ends without a line feed. -/
def isOpen (config : Configuration) (release : Release) (kind : Kind) : Bool :=
  (endText? config release kind).any opensEnd

theorem isWhole_isLineFeed_iff {text : List Char} (hne : text ≠ []) :
    IsWhole isLineFeed text ↔ text.getLast? = some '\n' := by
  constructor
  · intro h
    obtain ⟨c, hc⟩ := Option.ne_none_iff_exists'.1 (mt List.getLast?_eq_none_iff.1 hne)
    rw [hc, of_decide_eq_true (h c hc)]
  · intro h c hc
    obtain rfl := Option.some.inj (h.symm.trans hc)
    rfl

theorem lastMemberText?_concat (members : List (String × Json)) (key : String) (value : Json) :
    lastMemberText? (members ++ [(key, value)]) = lastText? value := by
  induction members with
  | nil => rw [List.nil_append, lastMemberText?]
  | cons member rest ih =>
    rw [List.cons_append, ← ih]
    cases rest with
    | nil => rfl
    | cons next rest => rfl

theorem lastText?_ofGiven_concat (members : List (String × Option Json)) (key : String)
    (value : Json) : lastText? (.ofGiven (members ++ [(key, some value)])) = lastText? value := by
  unfold Json.ofGiven
  rw [lastText?, List.filterMap_append]
  exact lastMemberText?_concat _ key value

theorem lastText?_ofGiven_absent (members : List (String × Option Json)) (key : String) :
    lastText? (.ofGiven (members ++ [(key, none)])) = lastText? (.ofGiven members) := by
  unfold Json.ofGiven
  rw [List.filterMap_append]
  simp

theorem not_opensEnd_of_isLabel {text : String} (h : IsLabel text) : opensEnd text = false := by
  obtain ⟨-, -, last, hlast, hend⟩ := isLabel_iff.1 h
  have hbreak : isBreak last = false := by
    rw [← Bool.not_eq_true, isBreak_iff]
    rintro (rfl | rfl | rfl | rfl | rfl) <;> exact absurd hend (by decide)
  unfold opensEnd
  rw [hlast, Option.any_some, hbreak, Bool.false_and, Bool.and_false]

theorem not_opensEnd_label (exposure : Configuration.Exposure) :
    opensEnd exposure.label = false := by
  cases exposure <;> decide +kernel

namespace Manifest

theorem lastText?_manifestJson (apiVersion kind : String) (metadata : Metadata)
    (more : List (String × Option Json)) (key : String) (value : Json) :
    lastText? (manifestJson apiVersion kind metadata (more ++ [(key, some value)])) =
      lastText? value := by
  unfold manifestJson
  rw [← List.append_assoc]
  exact lastText?_ofGiven_concat _ key value

theorem lastText?_metadata (metadata : Metadata) :
    lastText? metadata.toJson = some metadata.targetNamespace :=
  lastText?_ofGiven_concat [_, _, _] "namespace" (.text metadata.targetNamespace)

theorem lastText?_serviceAccount (account : ServiceAccount) :
    lastText? account.toJson = some account.metadata.targetNamespace :=
  (lastText?_ofGiven_concat [_, _] "metadata" account.metadata.toJson).trans
    (lastText?_metadata account.metadata)

theorem lastText?_secret (secret : Secret) : lastText? secret.toJson = some "Opaque" :=
  lastText?_manifestJson _ _ _ [_] "type" (.text "Opaque")

theorem lastText?_service (service : Service) :
    lastText? service.toJson = some service.exposure.label :=
  lastText?_manifestJson _ _ _ [] "spec" _

theorem lastText?_deployment (deployment : Deployment) :
    lastText? deployment.toJson =
      if deployment.template.tolerations.isEmpty then some deployment.template.serviceAccountName
      else lastItemText? deployment.template.tolerations := by
  refine (lastText?_manifestJson _ _ _ [] "spec" _).trans ?_
  refine (lastText?_ofGiven_concat [_, _] "template" deployment.template.toJson).trans ?_
  unfold PodTemplate.toJson
  cases deployment.template.tolerations with
  | nil =>
    refine (lastText?_ofGiven_absent [_, _, _, _, _, _] "tolerations").trans ?_
    exact lastText?_ofGiven_concat [_, _, _, _, _] "serviceAccountName" _
  | cons first rest =>
    exact lastText?_ofGiven_concat [_, _, _, _, _, _] "tolerations" (.list (first :: rest))

theorem lastText?_autoscaler (scaler : Autoscaler) :
    lastText? scaler.toJson = some scaler.target := by
  refine (lastText?_manifestJson _ _ _ [] "spec" _).trans ?_
  exact lastText?_ofGiven_concat [_, _, _] "scaleTargetRef" _

theorem lastText?_ingress (ingress : Ingress) :
    lastText? ingress.toJson =
      match ingress.tls with
      | some tls => some tls.secretName
      | none => some "Prefix" := by
  refine (lastText?_manifestJson _ _ _ [] "spec" _).trans ?_
  cases ingress.tls with
  | none =>
    refine (lastText?_ofGiven_absent [_, _] "tls").trans ?_
    refine (lastText?_ofGiven_concat [_] "rules" (.list [ingress.ruleJson])).trans ?_
    exact lastText?_ofGiven_concat [_] "http" _
  | some tls =>
    refine (lastText?_ofGiven_concat [_, _] "tls" (.list [tls.toJson])).trans ?_
    exact lastText?_ofGiven_concat [_] "secretName" (.text tls.secretName)

/-- The documents of a plan end as the configuration says. -/
theorem endsOpen_eq_isOpen {config : Configuration} {release : Release} {env : EnvironmentList}
    (hrelease : checkRelease release = .ok ()) :
    ∀ m ∈ (Bundle.of (.ofEnvironment config release env)).manifests,
      endsOpen m.2 = isOpen config release m.1 := by
  refine Bundle.forall_mem_manifests.2 ⟨?_, ?_, ?_, ?_, ?_, ?_⟩
  · intro account haccount
    obtain ⟨-, haccount⟩ := Option.ite_none_right_eq_some.1 haccount
    obtain rfl := Option.some.inj haccount
    unfold endsOpen
    rw [lastText?_serviceAccount]
    exact not_opensEnd_of_isLabel (checkRelease_eq_ok_iff.1 hrelease).2.1
  · unfold endsOpen
    rw [lastText?_secret]
    exact (by decide +kernel : opensEnd "Opaque" = false)
  · unfold endsOpen
    rw [lastText?_service]
    exact not_opensEnd_label _
  · unfold endsOpen
    rw [lastText?_deployment]
    rfl
  · intro scaler hscaler
    obtain ⟨autoscaling, -, rfl⟩ := Option.map_eq_some_iff.1 hscaler
    unfold endsOpen
    rw [lastText?_autoscaler]
    rfl
  · intro ingress hingress
    obtain ⟨-, hingress⟩ := Option.ite_none_right_eq_some.1 hingress
    obtain rfl := Option.some.inj hingress
    unfold endsOpen
    rw [lastText?_ingress]
    cases htls : config.ingress.tls.enabled with
    | true => simp [isOpen, endText?, DeploymentPlan.ofEnvironment, htls]
    | false =>
      have hprefix : opensEnd "Prefix" = false := by decide +kernel
      simp [isOpen, endText?, DeploymentPlan.ofEnvironment, htls, hprefix]

end Manifest

/-- The lines of documents with a separator before each are those of the documents with a
marker before each, if all documents but the last are whole. -/
theorem linesOf_flatMap_separator {ends : Char → Bool} (hfeed : ends '\n' = true)
    (hdash : ends '-' = false) {contents : List (List Char)}
    (hwhole : ∀ content ∈ contents.dropLast, IsWhole ends content) :
    linesOf ends (contents.flatMap fun content => marker ++ ['\n'] ++ content) =
      (contents.map (linesOf ends)).flatMap ((marker ++ ['\n']) :: ·) := by
  have hseparator : IsWhole ends (marker ++ ['\n']) := by
    intro c hc
    rw [List.getLast?_concat] at hc
    exact Option.some.inj hc ▸ hfeed
  have hline : linesOf ends (marker ++ ['\n']) = [marker ++ ['\n']] :=
    linesOf_concat (not_ends_of_mem_marker hdash) '\n'
  induction contents with
  | nil => rfl
  | cons content rest ih =>
    rw [List.flatMap_cons, List.append_assoc, linesOf_append hseparator, hline, List.map_cons,
      List.flatMap_cons, List.singleton_append, List.cons_append]
    congr 1
    cases rest with
    | nil => simp
    | cons next rest =>
      rw [List.dropLast_cons_of_ne_nil (List.cons_ne_nil next rest)] at hwhole
      obtain ⟨hcontent, hrest⟩ := List.forall_mem_cons.1 hwhole
      rw [linesOf_append hcontent, ih hrest]

/-- Documents without markers are what a stream is cut into exactly if all but the last
are whole. -/
theorem cutAtMarkers_stream_iff {ends : Char → Bool} (hfeed : ends '\n' = true)
    (hdash : ends '-' = false) {documents : List Document}
    (hlines : ∀ document ∈ documents, ∀ line ∈ linesOf ends document.content.toList,
      isMarker ends line = false) :
    cutAtMarkers ends (String.join (documents.map fun document =>
        Bundle.separator ++ document.content)) = "" :: documents.map (·.content) ↔
      ∀ document ∈ documents.dropLast, IsWhole ends document.content.toList := by
  constructor
  · intro hcut document hdocument
    apply isWhole_of_mem_dropLast_cutAtMarkers
    rw [hcut, List.dropLast_cons_of_ne_nil]
    · rw [← List.map_dropLast]
      exact List.mem_cons_of_mem _ (List.mem_map_of_mem hdocument)
    · rw [ne_eq, List.map_eq_nil_iff]
      rintro rfl
      cases hdocument
  · intro hwhole
    have htext : (String.join (documents.map fun document =>
        Bundle.separator ++ document.content)).toList =
        (documents.map (·.content.toList)).flatMap fun content => marker ++ ['\n'] ++ content := by
      rw [String.toList_join, List.flatMap_map, List.flatMap_map]
      refine List.flatMap_congr fun document _ => ?_
      rw [String.toList_append]
      rfl
    have hcontents : ∀ content ∈ (documents.map (·.content.toList)).dropLast,
        IsWhole ends content := by
      rw [← List.map_dropLast]
      exact List.forall_mem_map.2 hwhole
    unfold cutAtMarkers cutLines
    rw [htext, linesOf_flatMap_separator hfeed hdash hcontents, splitOnP_flatMap_cons]
    · rw [List.map_cons, List.map_map, List.map_map]
      refine congrArg ("" :: ·) (List.map_congr_left fun document _ => ?_)
      change String.ofList (linesOf ends document.content.toList).flatten = document.content
      rw [flatten_linesOf, String.ofList_toList]
    · exact decide_eq_true (takeWhile_line (not_ends_of_mem_marker hdash) hfeed)
    · rw [List.map_map]
      exact List.forall_mem_map.2 hlines

/-- For every render: no line of a document is the marker; a document ends with a line
feed exactly if what is configured at its end does not end with another break; the
stream is cut into the documents at the lines by line feeds exactly if all documents
but the last end so, and always at the lines by the breaks of YAML. -/
theorem render_cut_stream (config : Configuration) (release : Release) (rendered : Rendered)
    (hrender : render config release = .ok rendered) :
    let documents := rendered.bundle.documents
    (∀ document ∈ documents, ∀ line ∈ linesOf isLineFeed document.content.toList,
      isMarker isLineFeed line = false) ∧
    (∀ document ∈ documents,
      document.content.toList.getLast? = some '\n' ↔ isOpen config release document.kind = false) ∧
    (cutAtMarkers isLineFeed rendered.bundle.stream = "" :: documents.map (·.content) ↔
      ∀ document ∈ documents.dropLast, isOpen config release document.kind = false) ∧
    cutAtMarkers isBreak rendered.bundle.stream = "" :: documents.map (·.content) := by
  obtain ⟨hrelease, -, env, -, rfl⟩ := render_eq_ok_iff.1 hrender
  generalize hbundle : Bundle.of (.ofEnvironment config release env) = bundle
  have hopens : ∀ m ∈ bundle.manifests, endsOpen m.2 = isOpen config release m.1 :=
    hbundle ▸ endsOpen_eq_isOpen hrelease
  have hlines : ∀ {ends : Char → Bool}, (∀ c, ends c = true → isBreak c = true) →
      ∀ document ∈ bundle.documents, ∀ line ∈ linesOf ends document.content.toList,
        isMarker ends line = false := by
    intro ends hends
    exact List.forall_mem_map.2 fun m _ => not_isMarker_of_mem_linesOf_print hends m.2
  have hends : ∀ document ∈ bundle.documents, document.content.toList.getLast? = some '\n' ↔
      isOpen config release document.kind = false := by
    refine List.forall_mem_map.2 fun m hm => ?_
    rw [← hopens m hm]
    exact getLast?_print_iff m.2
  have hne : ∀ document ∈ bundle.documents, document.content.toList ≠ [] :=
    List.forall_mem_map.2 fun m _ => print_ne_nil m.2
  refine ⟨hlines fun c hc => ?_, hends, ?_, ?_⟩
  · rw [of_decide_eq_true hc]
    rfl
  · refine (cutAtMarkers_stream_iff rfl rfl (hlines fun c hc => ?_)).trans ?_
    · rw [of_decide_eq_true hc]
      rfl
    · refine forall₂_congr fun document hdocument => ?_
      have hmem := List.mem_of_mem_dropLast hdocument
      rw [isWhole_isLineFeed_iff (hne document hmem), hends document hmem]
  · refine (cutAtMarkers_stream_iff rfl rfl (hlines fun c hc => hc)).2 fun document hdocument => ?_
    obtain ⟨m, -, rfl⟩ := List.mem_map.1 (List.mem_of_mem_dropLast hdocument)
    exact isWhole_print m.2

/-- With a service account whose name has two lines and ends with a line separator, the
ingress that follows the deployment is not cut off. -/
theorem render_cut_stream_of_separator :
    let config : Configuration :=
      { serviceAccount := { name := some "a\nb\u2028" }, ingress := { enabled := true } }
    ∃ rendered, render config {} = .ok rendered ∧
      cutAtMarkers isLineFeed rendered.bundle.stream ≠
        "" :: rendered.bundle.documents.map (·.content) := by
  intro config
  have hrenders : (render config {}).isOk = true := by decide +kernel
  obtain ⟨rendered, hrender⟩ := isOk_iff.1 hrenders
  obtain ⟨-, -, hcut, -⟩ := render_cut_stream config {} rendered hrender
  have hopens : (render config {}).toOption.map (fun rendered =>
      rendered.bundle.documents.dropLast.any fun document => isOpen config {} document.kind) =
        some true := by decide +kernel
  rw [hrender] at hopens
  obtain ⟨document, hdocument, hopen⟩ := List.any_eq_true.1 (Option.some.inj hopens)
  refine ⟨rendered, hrender, fun heq => ?_⟩
  rw [hcut.1 heq document hdocument] at hopen
  cases hopen

end ServerManifests
