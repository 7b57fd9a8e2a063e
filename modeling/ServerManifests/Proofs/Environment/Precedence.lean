import ServerManifests.Proofs.Environment.Composition
import ServerManifests.Proofs.Render.References

/-!
Who decides a variable of the container. Of the entries of all sources, in the
order of precedence, the first one of a name gives its place and the last one its
value; the container has just these variables.
-/
namespace ServerManifests.Environment

open Manifest

theorem get?_composeOf {config : Configuration} {sources : List Source}
    {env : EnvironmentList} {parts : List (List Entry)} (h : composeOf config sources = .ok env)
    (hparts : sources.mapM (Source.entries config) = .ok parts) (name : String) :
    env.get? name = lastValue? parts.flatten name := by
  obtain ⟨parts', hparts', rfl⟩ := composeOf_eq_ok_iff.1 h
  obtain rfl : parts' = parts := Except.ok.inj (hparts'.symm.trans hparts)
  rw [EnvironmentList.get?_setAll]
  exact Option.or_none

/-- The container's variables are those of the plan, which are composed. -/
theorem container_environment {config : Configuration} {release : Release} {rendered : Rendered}
    {env : EnvironmentList} (hrender : render config release = .ok rendered)
    (henv : compose config = .ok env) :
    rendered.bundle.deployment.template.container.environment = env.entries := by
  obtain ⟨-, -, env', henv', rfl⟩ := render_eq_ok_iff.1 hrender
  obtain rfl : env' = env := Except.ok.inj (henv'.symm.trans henv)
  rfl

/-- What is written into the deployment are these variables. -/
theorem written_environment {config : Configuration} {release : Release} {rendered : Rendered}
    {env : EnvironmentList} (hrender : render config release = .ok rendered)
    (henv : compose config = .ok env) :
    rendered.bundle.at? .deployment (containerPath ["env"]) =
      some (writtenVariables env.entries) := by
  rw [Bundle.at?_deployment, Deployment.at?_container, Container.at?_variables,
    container_environment hrender henv]

/-- All sources but the user's. -/
def Source.computed : List Source := [.core, .database, .secretsStore, .backupSecretsStore]

theorem user_entries_eq {config : Configuration} {entries : List Entry}
    (h : Source.user.entries config = .ok entries) :
    entries = config.environment.entries.map fun (name, value) => ⟨name, value⟩ :=
  (Except.ok.inj (Source.contribution_eq_of_entries h)).symm

theorem pairwise_entries_textMap (m : TextMap String) :
    (m.entries.map fun (name, value) => Entry.mk name value).Pairwise (·.name < ·.name) :=
  List.pairwise_map.2 m.ordered

theorem nodup_names_of_pairwise {entries : List Entry} (h : entries.Pairwise (·.name < ·.name)) :
    (names entries).Nodup := by
  apply List.pairwise_map.2
  refine h.imp ?_
  intro first second hlt heq
  exact String.lt_irrefl _ (heq ▸ hlt)

theorem lastValue?_textMap (m : TextMap String) (name : String) :
    lastValue? (m.entries.map fun (name, value) => ⟨name, value⟩) name = m.get? name := by
  have hdistinct := nodup_names_of_pairwise (pairwise_entries_textMap m)
  cases hvalue : m.get? name with
  | none =>
    apply lastValue?_eq_none_iff.2
    intro hmem
    obtain ⟨entry, hentry, rfl⟩ := List.mem_map.1 hmem
    obtain ⟨⟨name, value⟩, he, rfl⟩ := List.mem_map.1 hentry
    exact nomatch hvalue.symm.trans ((TextMap.get?_eq_some_iff m name value).2 he)
  | some value =>
    have hentry := (TextMap.get?_eq_some_iff m name value).1 hvalue
    exact lastValue?_of_mem hdistinct (List.mem_map_of_mem hentry)

theorem lastValue?_user {config : Configuration} {user : List Entry}
    (h : Source.user.entries config = .ok user) (name : String) :
    lastValue? user name = config.environment.get? name := by
  rw [user_entries_eq h]
  exact lastValue?_textMap config.environment name

/-- The last source that has a name gives its value. -/
theorem get?_compose_of_source {config : Configuration} {env : EnvironmentList} {source : Source}
    {before after : List Source} {entries : List Entry} {name : String}
    (h : compose config = .ok env) (hsplit : Source.precedence = before ++ source :: after)
    (hentries : source.entries config = .ok entries) (hmem : name ∈ names entries)
    (hlater : ∀ later ∈ after, ∀ others, later.entries config = .ok others →
      name ∉ names others) :
    env.get? name = lastValue? entries name := by
  rw [compose_eq_composeOf] at h
  obtain ⟨parts, hparts, -⟩ := composeOf_eq_ok_iff.1 h
  rw [get?_composeOf h hparts]
  rw [hsplit, List.mapM_append] at hparts
  obtain ⟨first, -, hparts⟩ := bind_eq_ok_iff.1 hparts
  obtain ⟨last, hlast, hparts⟩ := bind_eq_ok_iff.1 hparts
  obtain rfl := Except.ok.inj hparts
  rw [List.mapM_cons] at hlast
  obtain ⟨given, hgiven, hlast⟩ := bind_eq_ok_iff.1 hlast
  obtain rfl : given = entries := Except.ok.inj (hgiven.symm.trans hentries)
  obtain ⟨rest, hrest, hlast⟩ := bind_eq_ok_iff.1 hlast
  obtain rfl : last = given :: rest := (Except.ok.inj hlast).symm
  have hnone : lastValue? rest.flatten name = none := by
    apply lastValue?_eq_none_iff.2
    intro hname
    obtain ⟨entry, hentry, rfl⟩ := List.mem_map.1 hname
    obtain ⟨others, hothers, hentry⟩ := List.mem_flatten.1 hentry
    obtain ⟨later, hafter, hothers⟩ := (mem_iff_of_mapM_eq_ok hrest).1 hothers
    exact hlater later hafter others hothers (List.mem_map_of_mem hentry)
  rw [List.flatten_append, List.flatten_cons, lastValue?_append, lastValue?_append, hnone,
    Option.none_or]
  cases hvalue : lastValue? given name with
  | none => exact absurd hmem (lastValue?_eq_none_iff.1 hvalue)
  | some value => rfl

/-- The user's variables are set on what the other sources compose. -/
theorem compose_eq_bind_user (config : Configuration) :
    compose config = composeOf config Source.computed >>= fun computed =>
      (Source.user.entries config).map computed.setAll := by
  have hsplit : Source.precedence = Source.computed ++ [.user] := rfl
  unfold compose
  rw [hsplit, List.foldlM_append, foldlM_sources]
  exact bind_congr fun _ => bind_pure _

/-- The user's value of a variable, or else the one that the other sources compose. -/
theorem get?_compose {config : Configuration} {env : EnvironmentList}
    (h : compose config = .ok env) :
    ∃ user computed, Source.user.entries config = .ok user ∧
      composeOf config Source.computed = .ok computed ∧
      ∀ name, lastValue? user name = config.environment.get? name ∧
        env.get? name = (config.environment.get? name).or (computed.get? name) := by
  rw [compose_eq_bind_user] at h
  obtain ⟨computed, hcomputed, h⟩ := bind_eq_ok_iff.1 h
  obtain ⟨user, huser, rfl⟩ := map_eq_ok_iff.1 h
  refine ⟨user, computed, huser, hcomputed, fun name => ⟨lastValue?_user huser name, ?_⟩⟩
  rw [EnvironmentList.get?_setAll, lastValue?_user huser]

/-- A composed environment has each name of its sources once, in the order of the
first occurrences, with the value of the last one; it is written into the container
entry for entry, each with its name and its value. -/
theorem compose_first_place_last_value (config : Configuration) (env : EnvironmentList)
    (h : compose config = .ok env) :
    ∃ parts, Source.precedence.mapM (Source.entries config) = .ok parts ∧
      (∀ name, (names env.entries).count name = if name ∈ names parts.flatten then 1 else 0) ∧
      names env.entries = (names parts.flatten).eraseDups ∧
      (∀ name, env.get? name = lastValue? parts.flatten name) ∧
      ∀ release rendered, render config release = .ok rendered →
        rendered.bundle.deployment.template.container.environment = env.entries ∧
        rendered.bundle.at? .deployment (containerPath ["env"]) =
          some (.list (env.entries.map fun entry =>
            .object [("name", .text entry.name), ("value", .text entry.value)])) := by
  have hcompose : composeOf config Source.precedence = .ok env := by
    rw [← compose_eq_composeOf]
    exact h
  obtain ⟨parts, hparts, henv⟩ := composeOf_eq_ok_iff.1 hcompose
  have hnames : names env.entries = (names parts.flatten).eraseDups := by
    rw [henv, EnvironmentList.names_setAll]
    exact congrArg List.eraseDups List.removeAll_nil
  refine ⟨parts, hparts, ?_, hnames, get?_composeOf hcompose hparts,
    fun _ _ hrender => ⟨container_environment hrender h, written_environment hrender h⟩⟩
  intro name
  rw [env.distinct.count, hnames]
  simp only [List.mem_eraseDups]

/-- A user's value for a core flag stands at the place of the flag. -/
theorem compose_first_place_last_value_of_user :
    ∃ env parts rendered,
      compose { environment := .ofList [("ZENML_ANALYTICS_OPT_IN", "off")] } = .ok env ∧
      names env.entries = (names (List.flatten parts)).eraseDups ∧
      env.entries[0]? = some ⟨"ZENML_ANALYTICS_OPT_IN", "off"⟩ ∧
      lastValue? parts.flatten "ZENML_ANALYTICS_OPT_IN" = some "off" ∧
      render { environment := .ofList [("ZENML_ANALYTICS_OPT_IN", "off")] } {} = .ok rendered ∧
      rendered.bundle.at? .deployment (containerPath ["env"]) =
        some (writtenVariables env.entries) := by
  obtain ⟨parts, hparts, hcount, hnames, hvalue, hrender⟩ := compose_first_place_last_value
    { environment := .ofList [("ZENML_ANALYTICS_OPT_IN", "off")] } _ rfl
  refine ⟨_, parts, _, rfl, hnames, ?_, ?_, rfl, (hrender {} _ rfl).2⟩
  · decide +kernel
  · rw [← hvalue]
    decide +kernel

end ServerManifests.Environment
