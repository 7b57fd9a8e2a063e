import ServerManifests.Proofs.Configuration.Fields
import ServerManifests.Proofs.Values.Settable

/-!
The text fields of a configuration, each with the path that an override gives it. All of
them are set by overrides that read as texts.
-/
namespace ServerManifests.Values

open Codec Yaml Value

/-- The fields that hold texts and may be given as any scalar. -/
inductive TextField where
  | imageTag
  | defaultProjectName
  | defaultUsername
  | jwtSecretKey
  | deploymentType
  | databasePassword
  | backupDatabase
  | environment (name : String)
  | ingressAnnotation (name : String)
  | serviceAccountAnnotation (name : String)
  | podAnnotation (name : String)
  | nodeLabel (name : String)

namespace TextField

/-- The fields of records on the way to a text. -/
def fields : TextField → List String
  | imageTag => ["image", "tag"]
  | defaultProjectName => ["defaultProjectName"]
  | defaultUsername => ["defaultUsername"]
  | jwtSecretKey => ["jwtSecretKey"]
  | deploymentType => ["deploymentType"]
  | databasePassword => ["database", "password"]
  | backupDatabase => ["database", "backupDatabase"]
  | environment _ => ["environment"]
  | ingressAnnotation _ => ["ingress", "annotations"]
  | serviceAccountAnnotation _ => ["serviceAccount", "annotations"]
  | podAnnotation _ => ["podAnnotations"]
  | nodeLabel _ => ["nodeSelector"]

/-- The entry of the text in a map. -/
def key? : TextField → Option String
  | environment name => some name
  | ingressAnnotation name => some name
  | serviceAccountAnnotation name => some name
  | podAnnotation name => some name
  | nodeLabel name => some name
  | _ => none

def path (field : TextField) : List String := field.fields ++ field.key?.toList

def get (config : Configuration) : TextField → Option String
  | imageTag => config.image.tag
  | defaultProjectName => some config.defaultProjectName
  | defaultUsername => some config.defaultUsername
  | jwtSecretKey => config.jwtSecretKey
  | deploymentType => config.deploymentType
  | databasePassword => config.database.password
  | backupDatabase => config.database.backupDatabase
  | environment name => config.environment.get? name
  | ingressAnnotation name => config.ingress.annotations.get? name
  | serviceAccountAnnotation name => config.serviceAccount.annotations.get? name
  | podAnnotation name => config.podAnnotations.get? name
  | nodeLabel name => config.nodeSelector.get? name

end TextField

/-- A scalar gives its text. -/
def GivesText (scalar : Value) (text : String) : Prop := readScalar scalar = .ok text

theorem isNull_of_givesText (scalar : Value) (text : String) (h : GivesText scalar text) :
    scalar.isNull = false := by
  cases scalar with
  | null => cases h
  | tagged tag value => cases h
  | _ => rfl

theorem readOption_of_readScalar {scalar : Value} {text : String}
    (h : readScalar scalar = .ok text) : readOption readScalar scalar = .ok (some text) := by
  have hnull : scalar ≠ .null := by
    rintro rfl
    cases h
  rw [readOption_of_ne_null hnull, h]
  rfl

variable {S : Type} {r : Record S} {name : String}

theorem settable_text {get : S → String} (howns : r.Owns name scalar.read get) :
    Settable GivesText r.read [name] none (fun record => some (get record)) :=
  settable_scalar isNull_of_givesText howns fun _ text htext => ⟨text, htext, rfl⟩

theorem settable_optionalText {get : S → Option String}
    (howns : r.Owns name scalar.option.read get) :
    Settable GivesText r.read [name] none get := by
  have hscalar : ∀ given text, GivesText given text →
      ∃ a, scalar.option.read given = .ok a ∧ id a = some text := by
    intro given text htext
    exact ⟨some text, readOption_of_readScalar htext, rfl⟩
  have hfield := settable_scalar isNull_of_givesText howns hscalar
  exact hfield

theorem settable_textEntry {get : S → TextMap String} (howns : r.Owns name textMap.read get)
    (hinitial : get r.initial = {}) (entry : String) :
    Settable GivesText r.read [name] (some entry) (fun record => (get record).get? entry) := by
  have hentry : Settable GivesText textMap.read [] (some entry) (·.get? entry) := by
    apply settable_entry isNull_of_givesText
    intro value value' scalar es m text hes hes' hread htext
    exact textMap_read_insert hes hes' hread (readOption_of_readScalar htext)
  refine settable_field howns hentry (by simp) ?_
  rw [hinitial]
  exact ⟨{}, rfl, rfl⟩

open ServerManifests.Configuration in
/-- Every text field can be set by an override. -/
theorem TextField.settable (field : TextField) :
    Settable GivesText Configuration.read field.fields field.key? (TextField.get · field) := by
  cases field with
  | imageTag =>
    exact settable_field embeds_image.owns (settable_optionalText Image.owns_tag) (by simp)
      ⟨_, rfl, rfl⟩
  | defaultProjectName => exact settable_text owns_defaultProjectName
  | defaultUsername => exact settable_text owns_defaultUsername
  | jwtSecretKey => exact settable_optionalText owns_jwtSecretKey
  | deploymentType => exact settable_optionalText owns_deploymentType
  | databasePassword =>
    exact settable_field embeds_database.owns (settable_optionalText Database.owns_password)
      (by simp) ⟨_, rfl, rfl⟩
  | backupDatabase =>
    exact settable_field embeds_database.owns (settable_optionalText Database.owns_backupDatabase)
      (by simp) ⟨_, rfl, rfl⟩
  | environment name => exact settable_textEntry owns_environment rfl name
  | ingressAnnotation name =>
    exact settable_field embeds_ingress.owns (settable_textEntry Ingress.owns_annotations rfl name)
      (by simp) ⟨_, rfl, rfl⟩
  | serviceAccountAnnotation name =>
    exact settable_field embeds_serviceAccount.owns
      (settable_textEntry ServiceAccount.owns_annotations rfl name) (by simp) ⟨_, rfl, rfl⟩
  | podAnnotation name => exact settable_textEntry owns_podAnnotations rfl name
  | nodeLabel name => exact settable_textEntry owns_nodeSelector rfl name

end ServerManifests.Values
