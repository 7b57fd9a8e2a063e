import ServerManifests.Proofs.Environment.Faults
import ServerManifests.Proofs.Environment.Precedence

/-!
Settings of the secrets store as variables of the container. A setting comes after what
the store says of itself, so it has its text under its name unless a later source has the
name too; a setting that is no scalar leaves nothing to compose.
-/
namespace ServerManifests.Environment

open ServerManifests.Configuration

/-- The sources after the secrets store do not have a name. -/
def NotLater (config : Configuration) (name : String) : Prop :=
  ∀ later ∈ [Source.backupSecretsStore, .user], ∀ entries,
    later.entries config = .ok entries → name ∉ names entries

instance (config : Configuration) (name : String) : Decidable (NotLater config name) :=
  decidable_of_iff (∀ later ∈ [Source.backupSecretsStore, .user],
      (later.entries config).toOption.all (fun entries => name ∉ names entries) = true) <| by
    refine forall_congr' fun later => imp_congr_right fun _ => ?_
    cases later.entries config with
    | error failure => simp [Except.toOption]
    | ok entries => simp [Except.toOption]

/-- All that a user chose beside one setting of the secrets store can be used. -/
def UsableBeside (config : Configuration) (name : String) : Prop :=
  ∀ source ∈ Source.precedence, ∀ member ∈ source.members config,
    (source, member.1) ≠ (.secretsStore, name) → IsScalar member.2 ∧ IsUsable member.1

theorem exists_compose_iff {config : Configuration} :
    (∃ env, compose config = .ok env) ↔
      ∀ source ∈ Source.precedence, ∀ member ∈ source.members config,
        IsScalar member.2 ∧ IsUsable member.1 := by
  have hsound (source : Source) : (∀ member ∈ source.members config,
      IsScalar member.2 ∧ IsUsable member.1) ↔ ¬ source.IsMalformed config := by
    simp [Source.IsMalformed, ← Classical.not_and_iff_not_or_not]
  simp only [hsound]
  cases hcompose : compose config with
  | ok env =>
    refine iff_of_true ⟨env, rfl⟩ fun source _ hmalformed => ?_
    obtain ⟨failure, hfailure⟩ := Source.isMalformed_iff.1 hmalformed
    obtain ⟨entries, hentries⟩ := exists_entries_of_compose hcompose source
    cases hfailure.symm.trans hentries
  | error failure =>
    obtain ⟨source, problem, hfirst, -⟩ := compose_eq_error_iff.1 hcompose
    exact iff_of_false nofun fun h => h source hfirst.mem hfirst.of_bad

theorem lastValue?_storeEntries {start name : String} {store : SecretsStore} {setting : Setting}
    {entries : List Entry} (hon : store.enabled = true)
    (hsetting : store.settings.get? name = some setting)
    (h : storeEntries start store = .ok entries) :
    ∃ text, settingText name setting.json = .ok text ∧ lastValue? entries name = some text := by
  obtain ⟨settings, hsettings, h⟩ := bind_eq_ok_iff.1 h
  obtain rfl := Except.ok.inj h
  have hdistinct : (names settings).Nodup := by
    have hmembers := hsettings
    rw [settingEntries_eq_memberEntries hon] at hmembers
    rw [names_memberEntries hmembers, storeMembers, if_pos hon, List.map_map]
    exact store.settings.nodup_keys
  have hmem := (TextMap.get?_eq_some_iff store.settings name setting).1 hsetting
  obtain ⟨entry, hentry⟩ := exists_of_mapM_eq_ok hsettings hmem
  have hlisted : entry ∈ settings := (mem_iff_of_mapM_eq_ok hsettings).2 ⟨_, hmem, hentry⟩
  obtain ⟨text, htext, rfl⟩ := map_eq_ok_iff.1 hentry
  refine ⟨text, htext, ?_⟩
  rw [← List.cons_append, lastValue?_append, lastValue?_of_mem hdistinct hlisted, Option.some_or]

variable {config : Configuration} {name : String} {setting : Setting}
  (hon : config.secretsStore.enabled = true)
  (hsetting : config.secretsStore.settings.get? name = some setting)
include hon hsetting

/-- A setting gives a variable its text. -/
theorem get?_compose_of_setting {env : EnvironmentList} (h : compose config = .ok env)
    (hlater : NotLater config name) :
    ∃ text, settingText name setting.json = .ok text ∧ env.get? name = some text := by
  obtain ⟨entries, hentries⟩ := exists_entries_of_compose h .secretsStore
  have hstore : storeEntries "ZENML_SECRETS_STORE_" config.secretsStore = .ok entries :=
    (if_pos hon).symm.trans (Source.contribution_eq_of_entries hentries)
  obtain ⟨text, htext, hlast⟩ := lastValue?_storeEntries hon hsetting hstore
  have hmem : name ∈ names entries := by
    by_cases hmem : name ∈ names entries
    · exact hmem
    · rw [lastValue?_eq_none_iff.2 hmem] at hlast
      cases hlast
  have hsplit : Source.precedence =
      [.core, .database] ++ .secretsStore :: [.backupSecretsStore, .user] := rfl
  exact ⟨text, htext, (get?_compose_of_source h hsplit hentries hmem hlater).trans hlast⟩

/-- An environment can be composed if a setting is a scalar and everything else can be used. -/
theorem exists_compose_iff_of_setting (husable : IsUsable name) :
    (∃ env, compose config = .ok env) ↔ IsScalar setting.json ∧ UsableBeside config name := by
  have hmembers : Source.secretsStore.members config =
      config.secretsStore.settings.entries.map fun entry => (entry.1, entry.2.json) :=
    if_pos hon
  have hmem := (TextMap.get?_eq_some_iff config.secretsStore.settings name setting).1 hsetting
  rw [exists_compose_iff]
  constructor
  · intro hall
    have hmember : (name, setting.json) ∈ Source.secretsStore.members config := by
      rw [hmembers]
      exact List.mem_map_of_mem hmem
    refine ⟨(hall .secretsStore (by decide) _ hmember).1, ?_⟩
    exact fun source hsource member hgiven _ => hall source hsource member hgiven
  · rintro ⟨hscalar, hbeside⟩ source hsource member hgiven
    by_cases hsame : (source, member.1) = (.secretsStore, name)
    · obtain ⟨rfl, hname⟩ := Prod.mk.inj hsame
      rw [hmembers] at hgiven
      obtain ⟨⟨name', setting'⟩, hentry, rfl⟩ := List.mem_map.1 hgiven
      obtain rfl : name' = name := hname
      have hsetting' := (TextMap.get?_eq_some_iff _ name' setting').2 hentry
      obtain rfl : setting' = setting := Option.some.inj (hsetting'.symm.trans hsetting)
      exact ⟨hscalar, husable⟩
    · exact hbeside source hsource member hgiven hsame

end ServerManifests.Environment
