import ServerManifests.Proofs.Configuration.Fields
import ServerManifests.Proofs.Environment.Settings
import ServerManifests.Proofs.Values.Layers
import ServerManifests.Proofs.Values.Settable
import ServerManifests.Proofs.Values.Spelling

/-!
Numbers as settings of the secrets store, from the typed text to the container. An
override keeps a number if the tree prints it as it was typed, but a setting is printed
as JSON prints it: with a plus sign in a positive exponent, and not at all if it is
infinite or no number.
-/
namespace ServerManifests.Values

open Codec Decimal Environment Manifest Yaml

def IsNumber : Value → Prop
  | .int _ | .float _ => True
  | _ => False

instance : DecidablePred IsNumber
  | .int _ | .float _ => .isTrue trivial
  | .null | .bool _ | .text _ | .list _ | .map _ | .tagged _ _ => .isFalse id

/-- Values other than the numbers that JSON does not have. -/
def IsFinite : Value → Prop
  | .float .nan | .float (.infinite _) => False
  | _ => True

/-- Doubles of 1e16 and more, whose exponent is written and positive. -/
def IsLarge : Value → Prop
  | .float (.finite x) => 15 < Notation64.leading (x.shortest .toEven)
  | _ => False

instance : DecidablePred IsLarge
  | .float (.finite x) => inferInstanceAs (Decidable (15 < Notation64.leading (x.shortest .toEven)))
  | .float .nan | .float (.infinite _) | .null | .bool _ | .int _ | .text _ | .list _ | .map _
  | .tagged _ _ => .isFalse id

/-- A text with a plus sign put in front of its exponent. -/
def PlusSigned (raw text : String) : Prop :=
  ∃ mantissa exponent, raw = mantissa ++ "e" ++ exponent ∧ text = mantissa ++ "e+" ++ exponent

theorem PlusSigned.ne {raw text : String} (h : PlusSigned raw text) : text ≠ raw := by
  obtain ⟨mantissa, exponent, rfl, rfl⟩ := h
  intro heq
  have hletter : "e".length = 1 := rfl
  have hsigned : "e+".length = 2 := rfl
  have hlength := congrArg String.length heq
  simp only [String.length_append] at hlength
  omega

/-- What a setting is after an override; a null would drop it. -/
def GivesSetting (scalar : Value) (setting : Setting) : Prop :=
  scalar.isNull = false ∧ readSetting scalar = .ok setting

/-- JSON prints what the tree prints, or a plus sign more. -/
theorem floatText_of_text {x : Finite64} {raw : String}
    (h : Value.numberNotation.text (.finite x) = raw) :
    (Json.floatText x = raw ↔ ¬IsLarge (.float (.finite x))) ∧
      (IsLarge (.float (.finite x)) → PlusSigned raw (Json.floatText x)) := by
  obtain ⟨hsame, hsigned⟩ := @Notation64.finiteText_plus Value.numberNotation Json.numberNotation
    (-5) 15 rfl rfl rfl rfl rfl rfl (by decide) (by decide) x
  subst h
  have hlarge (h : IsLarge (.float (.finite x))) :
      PlusSigned (Value.numberNotation.text (.finite x)) (Json.floatText x) := by
    obtain ⟨mantissa, exponent, htext, htext'⟩ := hsigned h
    refine ⟨String.ofList mantissa, String.ofList exponent, ?_, ?_⟩
    · rw [Notation64.text, htext, ← String.toList_inj]
      simp
    · rw [Json.floatText, htext', ← String.toList_inj]
      simp
  refine ⟨⟨fun heq h => (hlarge h).ne heq, fun h => ?_⟩, hlarge⟩
  exact congrArg String.ofList (hsame (Int.not_lt.1 h))

/-- A number that is kept gives a setting, which is a scalar if the number is finite; its
text is the typed one unless the number is large. -/
theorem exists_setting_of_number {raw : String} (hnumber : IsNumber (scalarOf raw)) :
    ∃ setting, GivesSetting (scalarOf raw) setting ∧
      (IsScalar setting.json ↔ IsFinite (scalarOf raw)) ∧
      ∀ name text, settingText name setting.json = .ok text →
        (text = raw ↔ ¬IsLarge (scalarOf raw)) ∧
          (IsLarge (scalarOf raw) → PlusSigned raw text) := by
  rcases scalarOf_cases raw with h | ⟨b, h⟩ | ⟨n, h, hn⟩ | ⟨x, h, hx⟩ | h
  · rw [h] at hnumber
    exact hnumber.elim
  · rw [h] at hnumber
    exact hnumber.elim
  · rw [h]
    refine ⟨.int n, ⟨rfl, rfl⟩, iff_of_true trivial trivial, fun name text htext => ?_⟩
    obtain rfl := Except.ok.inj htext
    exact ⟨iff_of_true hn id, False.elim⟩
  · rw [h]
    cases x with
    | finite x =>
      refine ⟨.float x, ⟨rfl, rfl⟩, iff_of_true trivial trivial, fun name text htext => ?_⟩
      obtain rfl := Except.ok.inj htext
      exact floatText_of_text hx
    | nan | infinite _ =>
      refine ⟨.null, ⟨rfl, rfl⟩, iff_of_false id id, fun name text htext => ?_⟩
      cases htext
  · rw [h] at hnumber
    exact hnumber.elim

theorem isNull_of_givesSetting (scalar : Value) (setting : Setting)
    (h : GivesSetting scalar setting) : scalar.isNull = false := h.1

open ServerManifests.Configuration in
/-- Every setting of the secrets store can be set by an override. -/
theorem settable_setting (name : String) :
    Settable GivesSetting Configuration.read ["secretsStore", "settings"] (some name)
      (·.secretsStore.settings.get? name) := by
  have hentry : Settable GivesSetting settings.read [] (some name) (·.get? name) := by
    apply settable_entry isNull_of_givesSetting
    intro value value' scalar es members setting hes hes' hread hgives
    exact readMap_insert hes hes' hread hgives.2
  have hsettings := settable_field SecretsStore.owns_settings hentry (by simp) ⟨_, rfl, rfl⟩
  exact settable_field embeds_secretsStore.owns hsettings (by simp) ⟨_, rfl, rfl⟩

open ServerManifests.Configuration in
/-- A configuration has the setting that it was given last. -/
theorem shown_setting (name : String) :
    Shown GivesSetting Configuration.read ["secretsStore", "settings"] (some name)
      (·.secretsStore.settings.get? name) := by
  have hentry : Shown GivesSetting settings.read [] (some name) (·.get? name) := by
    apply shown_entry isNull_of_givesSetting
    intro scalar setting hgives
    exact hgives.2
  have hsettings := shown_field SecretsStore.owns_settings hentry (by simp)
  exact shown_field embeds_secretsStore.owns hsettings (by simp)

/-- What comes of an accepted override that gives a setting of the secrets store a number.
If the values can be read and the store is on, the variable has the typed text up to a plus
sign, and there is no environment if the number is not finite. Values that could be read
before stay so unless a field on the path has a twin; a twin that comes after the setting
keeps what was there. -/
theorem override_number (layers layers' : Layers) (expression path raw name : String)
    (hassignment : splitAssignment? expression = some (path, raw))
    (hpath : pathKeys path = ["secretsStore", "settings", name])
    (hnumber : IsNumber (scalarOf raw)) (husable : IsUsable name)
    (haccepted : layers.withOverride expression = .ok layers') :
    (∀ config, layers'.build = .ok config →
      obstacle ["secretsStore", "settings"] (some name) layers.merged ≠ .shadowedEntry →
      config.secretsStore.enabled = true →
        ((∃ env, compose config = .ok env) ↔
          IsFinite (scalarOf raw) ∧ UsableBeside config name) ∧
        ∀ env, compose config = .ok env → NotLater config name →
          ∃ text, env.entries.filter (·.name = name) = [⟨name, text⟩] ∧
            (text = raw ↔ ¬IsLarge (scalarOf raw)) ∧
            (IsLarge (scalarOf raw) → PlusSigned raw text) ∧
            ∀ release rendered, render config release = .ok rendered →
              rendered.bundle.deployment.template.container.environment = env.entries ∧
              rendered.bundle.at? .deployment (containerPath ["env"]) =
                some (writtenVariables env.entries)) ∧
    ∀ before, layers.build = .ok before →
      match obstacle ["secretsStore", "settings"] (some name) layers.merged with
      | .none => ∃ config, layers'.build = .ok config
      | .shadowedEntry => ∃ config, layers'.build = .ok config ∧
          config.secretsStore.settings.get? name = before.secretsStore.settings.get? name
      | .repeatedField => ∃ failure, layers'.build = .error failure := by
  obtain ⟨setting, hgives, hscalar, hprinted⟩ := exists_setting_of_number hnumber
  obtain ⟨path', raw', hsplit, -, hassign⟩ :=
    applyOverride_eq_ok_iff.1 (Layers.withOverride_eq_ok_iff.1 haccepted)
  obtain ⟨rfl, rfl⟩ := Prod.mk.inj (Option.some.inj (hassignment.symm.trans hsplit))
  rw [hpath] at hassign
  constructor
  · intro config hbuild hobstacle hon
    have hsetting := shown_setting name _ _ config _ setting hgives hassign
      (mapError_eq_ok_iff.1 hbuild) hobstacle
    constructor
    · rw [exists_compose_iff_of_setting hon hsetting husable, hscalar]
    · intro env henv hlater
      obtain ⟨text, htext, hget⟩ := get?_compose_of_setting hon hsetting henv hlater
      obtain ⟨hsame, hlarge⟩ := hprinted name text htext
      refine ⟨text, ?_, hsame, hlarge, fun release rendered hrender => ?_⟩
      · rw [EnvironmentList.filter_name, hget]
        rfl
      · exact ⟨container_environment hrender henv, written_environment hrender henv⟩
  · intro before hbefore
    have houtcome := settable_setting name _ _ before _ setting (mapError_eq_ok_iff.1 hbefore)
      hgives hassign
    cases hobstacle : obstacle ["secretsStore", "settings"] (some name) layers.merged with
    | none =>
      rw [hobstacle] at houtcome
      obtain ⟨config, hread, -⟩ := houtcome
      exact ⟨config, mapError_eq_ok_iff.2 hread⟩
    | shadowedEntry =>
      rw [hobstacle] at houtcome
      obtain ⟨config, hread, hsetting⟩ := houtcome
      exact ⟨config, mapError_eq_ok_iff.2 hread, hsetting⟩
    | repeatedField =>
      rw [hobstacle] at houtcome
      cases hbuild : layers'.build with
      | error failure => exact ⟨failure, rfl⟩
      | ok config => exact absurd (mapError_eq_ok_iff.1 hbuild) (houtcome config)

/-- The text `1e16` is a number in the tree and arrives as another text. -/
theorem override_number_of_exponent :
    ∃ layers config env text,
      Layers.defaults.withOverride "secretsStore.settings.N=1e16" = .ok layers ∧
      layers.build = .ok config ∧ compose config = .ok env ∧
      env.entries.filter (·.name = "N") = [⟨"N", text⟩] ∧ PlusSigned "1e16" text ∧
      text ≠ "1e16" := by
  have hruns : (Layers.defaults.withOverride "secretsStore.settings.N=1e16" >>=
      (·.build)).toOption.any (fun config => config.secretsStore.enabled &&
        decide (NotLater config "N") && (compose config).isOk) = true := by decide +kernel
  have hplain : obstacle ["secretsStore", "settings"] (some "N") Layers.defaults.merged ≠
      .shadowedEntry := by decide +kernel
  obtain ⟨config, hrun, hchecks⟩ := exists_ok_of_any_toOption hruns
  obtain ⟨layers, haccepted, hbuild⟩ := bind_eq_ok_iff.1 hrun
  rw [Bool.and_eq_true_iff, Bool.and_eq_true_iff] at hchecks
  obtain ⟨⟨hon, hlater⟩, hcomposes⟩ := hchecks
  obtain ⟨env, henv⟩ := isOk_iff.1 hcomposes
  obtain ⟨harrives, -⟩ := override_number Layers.defaults layers "secretsStore.settings.N=1e16"
    "secretsStore.settings.N" "1e16" "N" (by decide +kernel) (by decide +kernel)
    (by decide +kernel) (by decide +kernel) haccepted
  obtain ⟨text, hfilter, -, hlarge, -⟩ :=
    (harrives config hbuild hplain hon).2 env henv (of_decide_eq_true hlater)
  have hsigned := hlarge (by decide +kernel)
  exact ⟨layers, config, env, text, haccepted, hbuild, henv, hfilter, hsigned, hsigned.ne⟩

end ServerManifests.Values
