import ServerManifests.Proofs.Render.Acceptance
import ServerManifests.Proofs.Render.Access

/-!
The host of an ingress. Its manifest has every host that is given, while the
instructions have no address where the host is blank; a blank host passes all checks.
-/
namespace ServerManifests

open Manifest

theorem Access.ofIngress_eq_undetermined_iff {config : Configuration} :
    Access.ofIngress config = .undetermined ↔
      ∀ host, config.ingress.host = some host → Text.isBlank host = true := by
  unfold ofIngress
  cases config.ingress.host with
  | none => simp
  | some host =>
    cases hblank : Text.isBlank host <;> simp [hblank]

theorem not_mem_of_isBlank {host : String} (h : Text.isBlank host = true) : '/' ∉ host.toList := by
  intro hmem
  have hslash : Text.isBlankChar '/' = true := List.all_eq_true.1 h _ hmem
  revert hslash
  decide

/-- A host without a slash can take the place of any other. -/
theorem Acceptable.with_host {config : Configuration} {release : Release} {host : String}
    (h : Acceptable config release) (hslash : '/' ∉ host.toList) :
    Acceptable { config with ingress.host := some host } release :=
  { h with
    ingress_host := by
      intro _ given hgiven
      obtain rfl := Option.some.inj hgiven
      exact hslash }

/-- What the instructions and the manifest make of the host of an ingress. -/
theorem host_of_render {config : Configuration} {release : Release} {rendered : Rendered}
    (h : render config release = .ok rendered) (henabled : config.ingress.enabled = true) :
    rendered.access = Access.ofIngress config ∧
      rendered.bundle.at? .ingress (rulePath ["host"]) = config.ingress.host.map .text ∧
      ∀ blocks, rendered.bundle.at? .ingress ["spec", "tls"] = some blocks →
        blocks.at? [.only, "hosts"] = config.ingress.host.map fun host => .list [.text host] := by
  obtain ⟨-, -, env, -, rfl⟩ := render_eq_ok_iff.1 h
  obtain ⟨ingress, htree, hhost, -, htls⟩ :=
    exists_ingress_of (.ofEnvironment config release env) henabled
  refine ⟨if_pos henabled, ?_, ?_⟩
  · rw [htree, Ingress.at?_host, hhost]
    rfl
  · intro blocks hblocks
    rw [htree, Ingress.at?_tls, htls] at hblocks
    obtain ⟨tls, htls, rfl⟩ := Option.map_eq_some_iff.1 hblocks
    obtain ⟨-, htls⟩ := Option.ite_none_right_eq_some.1 htls
    obtain rfl := Option.some.inj htls
    exact IngressTls.at?_hosts _

/-- The manifest leaves out a host that is not given, the instructions one that is blank as
well. So the two agree unless a blank host is given, and any blank host can be. -/
theorem undetermined_iff_absent_or_blank_host (config : Configuration) (release : Release)
    (rendered : Rendered) (h : render config release = .ok rendered)
    (henabled : config.ingress.enabled = true) :
    rendered.bundle.at? .ingress (rulePath ["host"]) = config.ingress.host.map .text ∧
      (∀ blocks, rendered.bundle.at? .ingress ["spec", "tls"] = some blocks →
        blocks.at? [.only, "hosts"] = config.ingress.host.map fun host => .list [.text host]) ∧
      (rendered.access = .undetermined ↔
        ∀ host, rendered.bundle.at? .ingress (rulePath ["host"]) = some (.text host) →
          Text.isBlank host = true) ∧
      ((rendered.access = .undetermined ↔
        rendered.bundle.at? .ingress (rulePath ["host"]) = none) ↔
          ∀ host, config.ingress.host = some host → Text.isBlank host = false) ∧
      ∀ host, Text.isBlank host = true → ∃ rendered',
        render { config with ingress.host := some host } release = .ok rendered' ∧
          rendered'.access = .undetermined ∧
          rendered'.bundle.at? .ingress (rulePath ["host"]) = some (.text host) := by
  obtain ⟨haccess, hhost, htls⟩ := host_of_render h henabled
  refine ⟨hhost, htls, ?_, ?_, ?_⟩
  · rw [haccess, Access.ofIngress_eq_undetermined_iff, hhost]
    simp
  · rw [haccess, Access.ofIngress_eq_undetermined_iff, hhost]
    cases config.ingress.host with
    | none => simp
    | some host => simp
  · intro host hblank
    have hacceptable := (acceptable_of_render h).with_host (not_mem_of_isBlank hblank)
    obtain ⟨rendered', h'⟩ := exists_render_of_acceptable hacceptable
    obtain ⟨haccess', hhost', -⟩ := host_of_render h' henabled
    refine ⟨rendered', h', ?_, hhost'⟩
    rw [haccess', Access.ofIngress_eq_undetermined_iff]
    intro given hgiven
    obtain rfl := Option.some.inj hgiven
    exact hblank

/-- An ingress for two blanks as its host. -/
def Configuration.ofBlankHost : Configuration where
  ingress := { enabled := true, host := some "  ", tls.enabled := true }

/-- The rule has the blank host that the instructions miss. -/
theorem undetermined_iff_absent_or_blank_host_of_blank :
    ∃ rendered, render .ofBlankHost {} = .ok rendered ∧ rendered.access = .undetermined ∧
      rendered.bundle.at? .ingress (rulePath ["host"]) = some (.text "  ") := by
  obtain ⟨hhost, -, hundetermined, -⟩ :=
    undetermined_iff_absent_or_blank_host .ofBlankHost {} _ rfl rfl
  refine ⟨_, rfl, hundetermined.2 ?_, hhost⟩
  intro host hgiven
  obtain rfl : "  " = host := Json.text.inj (Option.some.inj (hhost.symm.trans hgiven))
  decide

end ServerManifests
