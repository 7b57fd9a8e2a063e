import ServerManifests.Proofs.Values.Layers
import ServerManifests.Proofs.Values.Spelling
import ServerManifests.Proofs.Values.TextField

/-!
Overrides of text fields, from the typed text to the configuration. A text arrives
as typed unless it is respelled; a twin of a name on the path makes the values
unreadable or keeps the text that was there.
-/
namespace ServerManifests.Values

open Codec

/-- What an accepted override of a text field does to a configuration that could be
built, and when the field has the typed text. -/
theorem override_text (layers layers' : Layers) (config : Configuration) (field : TextField)
    (expression path raw : String) (hbuild : layers.build = .ok config)
    (hassignment : splitAssignment? expression = some (path, raw))
    (hpath : pathKeys path = field.path) (hnull : scalarOf raw ≠ .null)
    (haccepted : layers.withOverride expression = .ok layers') :
    ∃ text, readScalar (scalarOf raw) = .ok text ∧ (text = raw ↔ ¬Respelled raw) ∧
      match obstacle field.fields field.key? layers.merged with
      | .none => ∃ config', layers'.build = .ok config' ∧ field.get config' = some text
      | .shadowedEntry =>
        ∃ config', layers'.build = .ok config' ∧ field.get config' = field.get config
      | .repeatedField => ∃ failure, layers'.build = .error failure := by
  obtain ⟨text, htext, hiff⟩ := readScalar_scalarOf hnull
  refine ⟨text, htext, hiff, ?_⟩
  have hread : Configuration.read layers.merged = .ok config := mapError_eq_ok_iff.1 hbuild
  obtain ⟨path', raw', hsplit, -, hassign⟩ :=
    applyOverride_eq_ok_iff.1 (Layers.withOverride_eq_ok_iff.1 haccepted)
  obtain ⟨rfl, rfl⟩ := Prod.mk.inj (Option.some.inj (hassignment.symm.trans hsplit))
  rw [hpath] at hassign
  have houtcome := field.settable _ _ _ _ text hread htext hassign
  cases hobstacle : obstacle field.fields field.key? layers.merged with
  | none =>
    rw [hobstacle] at houtcome
    obtain ⟨config', hread', hget⟩ := houtcome
    exact ⟨config', mapError_eq_ok_iff.2 hread', hget⟩
  | shadowedEntry =>
    rw [hobstacle] at houtcome
    obtain ⟨config', hread', hget⟩ := houtcome
    exact ⟨config', mapError_eq_ok_iff.2 hread', hget⟩
  | repeatedField =>
    rw [hobstacle] at houtcome
    cases hbuild' : layers'.build with
    | error failure => exact ⟨failure, rfl⟩
    | ok config' => exact absurd (mapError_eq_ok_iff.1 hbuild') (houtcome config')

/-- The tag `1.0` is a number in the tree and arrives as `1`. -/
theorem override_text_of_number :
    ∃ layers config, Layers.defaults.withOverride "image.tag=1.0" = .ok layers ∧
      layers.build = .ok config ∧ config.image.tag = some "1" ∧ Respelled "1.0" := by
  have hbuilds : Layers.defaults.build.isOk = true := by decide +kernel
  have haccepts : (Layers.defaults.withOverride "image.tag=1.0").isOk = true := by decide +kernel
  have hscalar : (scalarOf "1.0").isNull = false := by decide +kernel
  have hprinted : (readScalar (scalarOf "1.0")).toOption = some "1" := by decide +kernel
  have hplain : obstacle TextField.imageTag.fields TextField.imageTag.key?
      Layers.defaults.merged = .none := by decide +kernel
  obtain ⟨config, hbuild⟩ := isOk_iff.1 hbuilds
  obtain ⟨layers, haccepted⟩ := isOk_iff.1 haccepts
  have hnull : scalarOf "1.0" ≠ .null := by
    intro heq
    rw [heq] at hscalar
    cases hscalar
  obtain ⟨text, htext, hiff, houtcome⟩ := override_text Layers.defaults layers config .imageTag
    "image.tag=1.0" "image.tag" "1.0" hbuild (by decide +kernel) (by decide +kernel) hnull
    haccepted
  rw [htext] at hprinted
  obtain rfl : text = "1" := Option.some.inj hprinted
  rw [hplain] at houtcome
  obtain ⟨config', hbuild', hget⟩ := houtcome
  have hrespelled : Respelled "1.0" := by
    by_contra hnot
    have hdiffers : "1" ≠ "1.0" := by decide
    exact hdiffers (hiff.2 hnot)
  exact ⟨layers, config', haccepted, hbuild', hget, hrespelled⟩

end ServerManifests.Values
