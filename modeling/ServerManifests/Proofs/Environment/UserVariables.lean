import ServerManifests.Proofs.Environment.Faults
import ServerManifests.Proofs.Environment.Precedence
import ServerManifests.Proofs.Text.Bytes

/-!
What the user's variables do to the others. A name that is composed without them
keeps its place and takes the user's value if there is one; the user's other names
come last, in the order of their bytes. So a variable of the user is seen at its
own name only.
-/
namespace ServerManifests

open Environment

namespace EnvironmentList

private theorem eraseDups_eq_self {l : List String} (h : l.Nodup) : l.eraseDups = l := by
  induction l with
  | nil => rfl
  | cons a rest ih =>
    obtain ⟨ha, hrest⟩ := List.nodup_cons.1 h
    have hothers : rest.filter (fun b => !b == a) = rest := by
      apply List.filter_eq_self.2
      intro b hb
      have hne : b ≠ a := fun heq => ha (heq ▸ hb)
      simpa using hne
    rw [List.eraseDups_cons, hothers, ih hrest]

/-- What is set changes values where they stand, and adds the new names in its own order. -/
theorem entries_setAll (env : EnvironmentList) {entries : List Entry}
    (hdistinct : (names entries).Nodup) :
    (env.setAll entries).entries =
      env.entries.map (fun entry =>
        { entry with value := (lastValue? entries entry.name).getD entry.value }) ++
      entries.filter (·.name ∉ names env.entries) := by
  refine (eq_entries ?_ ?_).symm
  · have hkept : names (env.entries.map fun entry =>
        { entry with value := (lastValue? entries entry.name).getD entry.value }) =
        names env.entries := by
      unfold names
      rw [List.map_map]
      rfl
    have hadded : names (entries.filter (·.name ∉ names env.entries)) =
        (names entries).removeAll (names env.entries) := by
      unfold names List.removeAll
      rw [List.filter_map]
      congr 1
      apply List.filter_congr
      intro entry _
      rw [Function.comp_apply, List.elem_eq_mem, decide_not]
    have hnodup : ((names entries).removeAll (names env.entries)).Nodup := hdistinct.filter _
    rw [names_append, hkept, hadded, names_setAll, eraseDups_eq_self hnodup]
  · intro entry hentry
    rw [get?_setAll]
    obtain hkept | hadded := List.mem_append.1 hentry
    · obtain ⟨present, hpresent, rfl⟩ := List.mem_map.1 hkept
      have hvalue : env.get? present.name = some present.value :=
        (get?_eq_some_iff env _ _).2 hpresent
      rw [hvalue]
      cases lastValue? entries present.name <;> rfl
    · obtain ⟨hmem, -⟩ := List.mem_filter.1 hadded
      rw [lastValue?_of_mem hdistinct hmem, Option.some_or]

/-- A name that is there keeps its place. -/
theorem index?_setAll_of_mem {env : EnvironmentList} {name : String} (entries : List Entry)
    (h : name ∈ names env.entries) : (env.setAll entries).index? name = env.index? name := by
  obtain ⟨position, hposition⟩ := List.mem_iff_getElem?.1 h
  have hlt : position < (names env.entries).length := (List.getElem?_eq_some_iff.1 hposition).1
  have hbefore : env.index? name = some position := (env.indexed name position).2 hposition
  have hafter : (env.setAll entries).index? name = some position := by
    refine ((env.setAll entries).indexed name position).2 ?_
    rw [names_setAll, List.getElem?_append_left hlt]
    exact hposition
  rw [hbefore, hafter]

end EnvironmentList

namespace Environment

/-- Only the user's source looks at the user's variables. -/
theorem compose_with_environment {config : Configuration} {computed : EnvironmentList}
    (h : composeOf config Source.computed = .ok computed) (environment : TextMap String) :
    compose { config with environment } =
      (Source.user.entries { config with environment }).map computed.setAll := by
  have hcomputed : composeOf { config with environment } Source.computed = .ok computed := h
  rw [compose_eq_bind_user, hcomputed]
  rfl

/-- The user's variables do not fail if their names can be used. -/
theorem exists_user_entries_iff {config : Configuration} :
    (∃ user, Source.user.entries config = .ok user) ↔
      ∀ name, config.environment.get? name ≠ none → IsUsable name := by
  have hok : (∃ user, Source.user.entries config = .ok user) ↔
      ¬ Source.user.IsMalformed config := by
    rw [Source.isMalformed_iff]
    cases Source.user.entries config with
    | error failure => simp
    | ok user => simp
  rw [hok, Source.isMalformed_user]
  constructor
  · intro h name hname
    obtain ⟨value, hvalue⟩ := Option.ne_none_iff_exists'.1 hname
    by_cases husable : IsUsable name
    · exact husable
    · exact absurd ⟨_, (TextMap.get?_eq_some_iff _ name value).1 hvalue, husable⟩ h
  · rintro h ⟨⟨name, value⟩, hentry, hbad⟩
    have hvalue := (TextMap.get?_eq_some_iff config.environment name value).2 hentry
    exact hbad (h name (by simp [hvalue]))

/-- The user's variables may differ at one name. -/
def SameExcept (name : String) (environment environment' : TextMap String) : Prop :=
  ∀ other, other ≠ name → environment'.get? other = environment.get? other

/-- A user may do anything with one variable whose name can be used, and all other
variables stay. -/
theorem compose_of_sameExcept {config : Configuration} {env : EnvironmentList}
    {environment : TextMap String} {name : String} (h : compose config = .ok env)
    (hsame : SameExcept name config.environment environment) :
    ((∃ env', compose { config with environment } = .ok env') ↔
      (environment.get? name ≠ none → IsUsable name)) ∧
    ∀ env', compose { config with environment } = .ok env' →
      ∀ other, other ≠ name → env'.get? other = env.get? other := by
  obtain ⟨user, computed, huser, hcomputed, hvalues⟩ := get?_compose h
  rw [compose_with_environment hcomputed]
  constructor
  · have hnames := exists_user_entries_iff.1 ⟨user, huser⟩
    have hexists : (∃ env', (Source.user.entries { config with environment }).map
        computed.setAll = .ok env') ↔
        ∃ user', Source.user.entries { config with environment } = .ok user' := by
      simp only [map_eq_ok_iff]
      exact ⟨fun ⟨_, user', h', _⟩ => ⟨user', h'⟩, fun ⟨user', h'⟩ => ⟨_, user', h', rfl⟩⟩
    rw [hexists, exists_user_entries_iff]
    constructor
    · intro h' hname
      exact h' name hname
    · intro h' other hother
      by_cases heq : other = name
      · subst heq
        exact h' hother
      · have hpresent : config.environment.get? other ≠ none := by
          rw [← hsame other heq]
          exact hother
        exact hnames other hpresent
  · intro env' h' other hother
    obtain ⟨user', huser', rfl⟩ := map_eq_ok_iff.1 h'
    rw [EnvironmentList.get?_setAll, lastValue?_user huser', (hvalues other).2,
      ← hsame other hother]

/-- The other sources' variables stay where they are composed without the user's, each
with the user's value if there is one; the user's other variables follow in the order
of their bytes. No variable of the user has an effect on another variable. -/
theorem user_variables_replace_or_follow (config : Configuration) (env : EnvironmentList)
    (h : compose config = .ok env) :
    ∃ computed added, compose { config with environment := {} } = .ok computed ∧
      env.entries = computed.entries.map (fun entry =>
        { entry with value := (config.environment.get? entry.name).getD entry.value }) ++ added ∧
      (∀ entry, entry ∈ added ↔
        config.environment.get? entry.name = some entry.value ∧
          entry.name ∉ names computed.entries) ∧
      added.Pairwise (fun first second => Text.bytes first.name < Text.bytes second.name) ∧
      (∀ name ∈ names computed.entries, env.index? name = computed.index? name) ∧
      ∀ environment name, SameExcept name config.environment environment →
        ((∃ env', compose { config with environment } = .ok env') ↔
          (environment.get? name ≠ none → IsUsable name)) ∧
        ∀ env', compose { config with environment } = .ok env' →
          (∀ other, other ≠ name → env'.get? other = env.get? other) ∧
          ∀ other ∈ names computed.entries, env'.index? other = env.index? other := by
  obtain ⟨user, computed, huser, hcomputed, -⟩ := get?_compose h
  have hcompose := compose_with_environment hcomputed
  obtain rfl : env = computed.setAll user := by
    have henv := hcompose config.environment
    rw [huser] at henv
    exact Except.ok.inj (h.symm.trans henv)
  have hpairwise : user.Pairwise (·.name < ·.name) := by
    rw [user_entries_eq huser]
    exact pairwise_entries_textMap config.environment
  refine ⟨computed, user.filter (·.name ∉ names computed.entries), hcompose {}, ?_, ?_, ?_, ?_, ?_⟩
  · simp only [← lastValue?_user huser]
    exact computed.entries_setAll (nodup_names_of_pairwise hpairwise)
  · intro entry
    have hmem : entry ∈ user ↔ config.environment.get? entry.name = some entry.value := by
      rw [TextMap.get?_eq_some_iff, user_entries_eq huser]
      constructor
      · intro hentry
        obtain ⟨_, he, rfl⟩ := List.mem_map.1 hentry
        exact he
      · intro he
        exact List.mem_map_of_mem he
    rw [List.mem_filter, hmem, decide_eq_true_iff]
  · exact (hpairwise.filter _).imp Text.bytes_lt_of_lt
  · intro name hname
    exact EnvironmentList.index?_setAll_of_mem user hname
  · intro environment name hsame
    obtain ⟨hexists, hothers⟩ := compose_of_sameExcept h hsame
    refine ⟨hexists, fun env' h' => ⟨hothers env' h', fun other hother => ?_⟩⟩
    rw [hcompose] at h'
    obtain ⟨user', -, rfl⟩ := map_eq_ok_iff.1 h'
    rw [EnvironmentList.index?_setAll_of_mem user' hother,
      EnvironmentList.index?_setAll_of_mem user hother]

/-- One variable of the user that is composed without it, and one that is not. -/
theorem user_variables_replace_or_follow_of_two :
    ∃ env computed added,
      compose { environment := .ofList [("EXTRA", "1"), ("ZENML_ANALYTICS_OPT_IN", "off")] } =
        .ok env ∧
      compose {} = .ok computed ∧
      names env.entries = names computed.entries ++ names added ∧
      (⟨"EXTRA", "1"⟩ ∈ added) ∧
      env.index? "ZENML_ANALYTICS_OPT_IN" = computed.index? "ZENML_ANALYTICS_OPT_IN" := by
  obtain ⟨computed, added, hcomputed, hentries, hadded, -, hplaces, -⟩ :=
    user_variables_replace_or_follow
      { environment := .ofList [("EXTRA", "1"), ("ZENML_ANALYTICS_OPT_IN", "off")] } _ rfl
  refine ⟨_, computed, added, rfl, hcomputed, ?_, ?_, ?_⟩
  · rw [hentries, names_append]
    unfold names
    rw [List.map_map]
    rfl
  · obtain rfl := Except.ok.inj hcomputed
    exact (hadded _).2 (by decide +kernel)
  · obtain rfl := Except.ok.inj hcomputed
    exact hplaces _ (by decide +kernel)

end Environment

end ServerManifests
