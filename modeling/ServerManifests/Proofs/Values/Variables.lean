import ServerManifests.Proofs.Configuration.Fields
import ServerManifests.Proofs.Environment.Precedence
import ServerManifests.Proofs.Values.Mention

/-!
Variables of the user, from the values to the container that is written. The last layer
that mentions a variable decides it: a scalar gives it that text, and with a null or a
cleared section the variable is left to the other sources.
-/
namespace ServerManifests.Values

open Codec Environment Manifest Yaml Value

theorem sound_get? {root value : Value} (h : Sound root) {key : String}
    (hget : root.get? [key] = some value) : Sound value :=
  ⟨everywhere_get? h.wellFormed hget, everywhere_get? h.noTag hget⟩

/-- In a sound tree a name is spelled by its text only. -/
theorem spelled?_eq_get? {value : Value} {expected : String} {es : Entries} (h : Sound value)
    (hes : readEntries expected value = .ok es) (name : String) :
    es.spelled? name = value.get? [name] := by
  have huntagged := untagged_of_noTag h.noTag.here
  rcases readEntries_eq_ok_iff.1 hes with hmap | ⟨hnull, rfl⟩
  · obtain rfl : value = .map es := huntagged.symm.trans hmap
    rw [get?_singleton_map]
    exact Entries.spelled?_eq_find?_of_noTag h.wellFormed.here
      (fun e he => ((everywhere_map_iff.1 h.noTag).2 e he).1.here) name
  · obtain rfl : value = .null := huntagged.symm.trans hnull
    rfl

/-- The user's variables are the texts at their places in the tree. -/
theorem taken_variable {tree : Value} {config : Configuration} (h : Sound tree)
    (hread : Configuration.read tree = .ok config) (name : String) :
    Taken (readOption readScalar) (tree.get? ["environment", name]) none
      (config.environment.get? name) := by
  obtain ⟨es, hes, hfields⟩ := bind_eq_ok_iff.1 hread
  have htaken := Configuration.owns_environment.taken hfields
  rw [spelled?_eq_get? h hes] at htaken
  rw [get?_cons]
  cases hpart : tree.get? ["environment"] with
  | none =>
    rw [hpart] at htaken
    have hempty : config.environment = {} := htaken
    rw [hempty]
    rfl
  | some part =>
    rw [hpart] at htaken
    obtain ⟨entries, hentries, hnames⟩ := taken_textMap htaken
    have hname := hnames name
    rwa [spelled?_eq_get? (sound_get? h hpart) hentries] at hname

/-- What a tree that reflects a mention gives a variable. -/
theorem text_of_reflects {found : Option Value} {mention : Option Mention} {text : Option String}
    (hreflects : Reflects found mention)
    (htaken : Taken (readOption readScalar) found none text) :
    (∀ value, mention = some (.given value) → value ≠ .null →
      ∃ s, readScalar value = .ok s ∧ text = some s) ∧
    ((∀ value, mention = some (.given value) → value = .null) → text = none) := by
  constructor
  · rintro value rfl hvalue
    rcases hreflects with rfl | ⟨hnull, -⟩ | ⟨entries, merged, -, rfl⟩
    · change readOption readScalar value = .ok text at htaken
      rw [readOption_of_ne_null hvalue] at htaken
      obtain ⟨s, hs, rfl⟩ := map_eq_ok_iff.1 htaken
      exact ⟨s, hs, rfl⟩
    · exact absurd hnull hvalue
    · change readOption readScalar (.map merged) = .ok text at htaken
      rw [readOption_of_ne_null (by simp)] at htaken
      obtain ⟨s, hs, -⟩ := map_eq_ok_iff.1 htaken
      cases hs
  · intro hnull
    rcases mention with - | ⟨value⟩ | -
    · obtain rfl : found = none := hreflects
      exact htaken
    · obtain rfl := hnull value rfl
      rcases hreflects with rfl | ⟨-, rfl⟩ | ⟨entries, merged, hmap, -⟩
      · exact (Except.ok.inj htaken).symm
      · exact htaken
      · cases hmap
    · obtain rfl : found = none := hreflects
      exact htaken

/-- The last layer that mentions a variable decides it in the variables that are written
into the container. -/
theorem last_mention_decides_variable (texts overrides : List String) (documents : List Value)
    (config : Configuration) (release : Release) (rendered : Rendered) (name : String)
    (hdocuments : texts.mapM Value.parse? = some documents)
    (hplain : ∀ document ∈ documents, document.hasTag = false)
    (hload : Configuration.load (texts.map .ok) overrides = .ok config)
    (hrender : render config release = .ok rendered) :
    ∃ user computed container, Source.user.entries config = .ok user ∧
      composeOf config Source.computed = .ok computed ∧
      rendered.bundle.at? .deployment (containerPath ["env"]) =
        some (writtenVariables container) ∧
      let mention := lastMention? "environment" name
        (documents ++ overrides.filterMap overrideLayer?)
      (∀ value, mention = some (.given value) → value ≠ .null →
        ∃ text, readScalar value = .ok text ∧
          container.filter (·.name = name) = [⟨name, text⟩]) ∧
      ((∀ value, mention = some (.given value) → value = .null) →
        name ∉ names user ∧
          container.filter (·.name = name) = computed.entries.filter (·.name = name)) := by
  obtain ⟨hlayers, hread⟩ := load_eq_ok hdocuments hplain hload
  have hsound := Layers.sound_defaults.foldl_stack hlayers
  have hreflects := reflects_lastMention Layers.sound_defaults hlayers "environment" name rfl
  obtain ⟨hgiven, hleft⟩ := text_of_reflects hreflects (taken_variable hsound hread name)
  obtain ⟨-, -, env, hcompose, -⟩ := render_eq_ok_iff.1 hrender
  obtain ⟨user, computed, huser, hcomputed, hnames⟩ := get?_compose hcompose
  obtain ⟨hlast, henv⟩ := hnames name
  have hwritten := written_environment hrender hcompose
  refine ⟨user, computed, env.entries, huser, hcomputed, hwritten, ?_, ?_⟩
  · intro value hmention hvalue
    obtain ⟨text, htext, hsome⟩ := hgiven value hmention hvalue
    refine ⟨text, htext, ?_⟩
    rw [EnvironmentList.filter_name, henv, hsome]
    rfl
  · intro hnull
    have hnone := hleft hnull
    rw [hnone] at hlast henv
    refine ⟨lastValue?_eq_none_iff.1 hlast, ?_⟩
    rw [EnvironmentList.filter_name, EnvironmentList.filter_name, henv, Option.none_or]

/-- Whether a mention gives an entry a certain text. -/
def Mention.givesText (text : String) : Mention → Bool
  | .given value => !value.isNull && decide ((readScalar value).toOption = some text)
  | .cleared => false

/-- An override of a variable that a document gives too. -/
theorem last_mention_decides_variable_of_override :
    ∃ config rendered container,
      Configuration.load [.ok "environment:\n  A: one\n"] ["environment.A=2"] = .ok config ∧
      render config {} = .ok rendered ∧
      rendered.bundle.at? .deployment (containerPath ["env"]) =
        some (writtenVariables container) ∧
      container.filter (·.name = "A") = [⟨"A", "2"⟩] := by
  have hparsed : (["environment:\n  A: one\n"].mapM Value.parse?).any (fun documents =>
      documents.all (!·.hasTag) && (lastMention? "environment" "A"
        (documents ++ ["environment.A=2"].filterMap overrideLayer?)).any (·.givesText "2")) =
          true := by decide +kernel
  have hrun : (Configuration.load [.ok "environment:\n  A: one\n"] ["environment.A=2"] >>=
      fun config => render config {}).isOk = true := by decide +kernel
  obtain ⟨documents, hdocuments, hcheck⟩ := (Option.any_eq_true _ _).1 hparsed
  obtain ⟨hplain, hmention⟩ := Bool.and_eq_true_iff.1 hcheck
  obtain ⟨mention, hlast, hgiven⟩ := (Option.any_eq_true _ _).1 hmention
  obtain ⟨rendered, hrendered⟩ := isOk_iff.1 hrun
  obtain ⟨config, hload, hrender⟩ := bind_eq_ok_iff.1 hrendered
  obtain ⟨-, -, container, -, -, hwritten, hdecided, -⟩ := last_mention_decides_variable
    ["environment:\n  A: one\n"] ["environment.A=2"] documents config {} rendered "A"
    hdocuments (by simpa using hplain) hload hrender
  cases mention with
  | cleared => cases hgiven
  | given value =>
    obtain ⟨hnull, htext⟩ := Bool.and_eq_true_iff.1 hgiven
    obtain ⟨text, hread, hfilter⟩ := hdecided value hlast (by rintro rfl; cases hnull)
    rw [hread] at htext
    obtain rfl : text = "2" := Option.some.inj (of_decide_eq_true htext)
    exact ⟨config, rendered, container, hload, hrender, hwritten, hfilter⟩

end ServerManifests.Values
