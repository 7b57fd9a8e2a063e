import ServerManifests.Proofs.Environment.Composition

/-!
The configurations that have no environment, and what is reported of them. Only
names and values that a user chooses can be unusable: the settings of a secrets
store that is on, and the user's own variables. Of all that is unusable, the
first source is blamed, and in it the first value before any name.
-/
namespace ServerManifests.Environment

open ServerManifests.Configuration

/-- Visible ASCII characters other than the equals sign. -/
def IsAllowed (c : Char) : Prop := '!' ≤ c ∧ c ≤ '~' ∧ c ≠ '='

theorem isNameChar_iff {c : Char} : isNameChar c = true ↔ IsAllowed c := by
  simp [isNameChar, IsAllowed, and_assoc]

def IsUsable (name : String) : Prop := name ≠ "" ∧ ∀ c ∈ name.toList, IsAllowed c

instance (name : String) : Decidable (IsUsable name) :=
  decidable_of_iff (name ≠ "" ∧ name.toList.all isNameChar = true)
    (by simp [IsUsable, isNameChar_iff])

/-- Values other than nulls, lists and objects. -/
def IsScalar : Json → Prop
  | .null | .list _ | .object _ => False
  | .bool _ | .int _ | .float _ | .text _ => True

/-- What is reported of the value of a name. -/
inductive ValueProblem (name : String) : Json → SourceProblem → Prop where
  | null : ValueProblem name .null (.noValue name)
  | list (items : List Json) : ValueProblem name (.list items) (.notScalar name)
  | object (members : List (String × Json)) : ValueProblem name (.object members) (.notScalar name)

inductive NameProblem : String → SourceProblem → Prop where
  | empty : NameProblem "" .emptyName
  | character {name : String} {c : Char} (h : IsFirst (¬ IsAllowed ·) name.toList c) :
    NameProblem name (.invalidCharacter c name)

/-- What is reported of names with their values: a value, or else a name. -/
inductive MembersProblem (members : List (String × Json)) : SourceProblem → Prop where
  | value {member : String × Json} {problem : SourceProblem}
    (hfirst : IsFirst (¬ IsScalar ·.2) members member)
    (hproblem : ValueProblem member.1 member.2 problem) : MembersProblem members problem
  | name {name : String} {problem : SourceProblem} (hvalues : ∀ member ∈ members, IsScalar member.2)
    (hfirst : IsFirst (¬ IsUsable ·) (members.map Prod.fst) name)
    (hproblem : NameProblem name problem) : MembersProblem members problem

def storeMembers (store : SecretsStore) : List (String × Json) :=
  if store.enabled then store.settings.entries.map fun (name, setting) => (name, setting.json)
  else []

namespace Source

/-- The names of a source that a user chooses, with their values. -/
def members (config : Configuration) : Source → List (String × Json)
  | .core | .database => []
  | .secretsStore => storeMembers config.secretsStore
  | .backupSecretsStore => storeMembers config.backupSecretsStore
  | .user => config.environment.entries.map fun (name, value) => (name, .text value)

def IsMalformed (config : Configuration) (source : Source) : Prop :=
  ∃ member ∈ source.members config, ¬ IsScalar member.2 ∨ ¬ IsUsable member.1

end Source

theorem not_isUsable_iff {name : String} :
    ¬ IsUsable name ↔ ∃ problem, NameProblem name problem := by
  constructor
  · intro h
    by_cases hempty : name = ""
    · subst hempty
      exact ⟨_, .empty⟩
    · have hbad : ∃ c ∈ name.toList, ¬ IsAllowed c := by simpa [IsUsable, hempty] using h
      obtain ⟨c, hc⟩ := exists_isFirst_iff.2 hbad
      exact ⟨_, .character hc⟩
  · rintro ⟨problem, hproblem⟩ ⟨hempty, hallowed⟩
    cases hproblem with
    | empty => exact hempty rfl
    | character hfirst =>
      exact hfirst.of_bad (hallowed _ hfirst.mem)

theorem checkName_eq_error_iff {entry : Entry} {problem : SourceProblem} :
    checkName entry = .error problem ↔ NameProblem entry.name problem := by
  obtain ⟨name, value⟩ := entry
  have hfind (c : Char) : name.toList.find? (!isNameChar ·) = some c ↔
      IsFirst (¬ IsAllowed ·) name.toList c := by
    rw [find?_eq_some_iff_isFirst]
    simp only [← isNameChar_iff, Bool.not_eq_true, Bool.not_eq_true']
  unfold checkName
  split
  case isTrue hempty =>
    obtain rfl : name = "" := by simpa using hempty
    constructor
    · intro h
      obtain rfl := Except.error.inj h
      exact .empty
    · intro h
      cases h with
      | empty => rfl
      | character hfirst => simpa using hfirst.mem
  case isFalse hempty =>
    constructor
    · intro h
      cases hc : name.toList.find? (!isNameChar ·) with
      | none => simp [hc] at h
      | some c =>
        simp only [hc, Except.error.injEq] at h
        subst h
        exact .character ((hfind c).1 hc)
    · intro h
      cases h with
      | empty => exact absurd rfl hempty
      | character hfirst => simp [(hfind _).2 hfirst]

theorem checkName_eq_ok_iff {entry : Entry} : checkName entry = .ok () ↔ IsUsable entry.name := by
  constructor
  · intro h
    by_cases husable : IsUsable entry.name
    · exact husable
    · obtain ⟨problem, hproblem⟩ := not_isUsable_iff.1 husable
      exact nomatch h.symm.trans (checkName_eq_error_iff.2 hproblem)
  · intro h
    cases hcheck : checkName entry with
    | ok => rfl
    | error problem =>
      exact absurd h (not_isUsable_iff.2 ⟨problem, checkName_eq_error_iff.1 hcheck⟩)

theorem settingText_eq_error_iff {name : String} {value : Json} {problem : SourceProblem} :
    settingText name value = .error problem ↔ ValueProblem name value problem := by
  constructor
  · intro h
    cases value with
    | null =>
      obtain rfl := Except.error.inj h
      exact .null
    | list items =>
      obtain rfl := Except.error.inj h
      exact .list items
    | object members =>
      obtain rfl := Except.error.inj h
      exact .object members
    | bool _ | int _ | float _ | text _ => exact nomatch h
  · intro h
    cases h <;> rfl

theorem not_isScalar_iff (name : String) {value : Json} :
    ¬ IsScalar value ↔ ∃ problem, ValueProblem name value problem := by
  cases value with
  | null => exact iff_of_true id ⟨_, .null⟩
  | list items => exact iff_of_true id ⟨_, .list items⟩
  | object members => exact iff_of_true id ⟨_, .object members⟩
  | bool _ | int _ | float _ | text _ =>
    exact iff_of_false (fun h => h trivial) fun ⟨_, h⟩ => nomatch h

/-- The entries of names with their values. -/
def memberEntries (members : List (String × Json)) : Except SourceProblem (List Entry) :=
  members.mapM fun member => (settingText member.1 member.2).map (⟨member.1, ·⟩)

theorem memberEntries_eq_error_iff {members : List (String × Json)} {problem : SourceProblem} :
    memberEntries members = .error problem ↔
      ∃ member, IsFirst (¬ IsScalar ·.2) members member ∧
        ValueProblem member.1 member.2 problem := by
  have hbad (member : String × Json) : ¬ IsScalar member.2 ↔
      ∃ e, (settingText member.1 member.2).map (Entry.mk member.1) = .error e := by
    simp only [map_eq_error_iff, settingText_eq_error_iff]
    exact not_isScalar_iff member.1
  unfold memberEntries
  rw [mapM_eq_error_iff hbad]
  simp only [map_eq_error_iff, settingText_eq_error_iff]

theorem names_memberEntries {members : List (String × Json)} {entries : List Entry}
    (h : memberEntries members = .ok entries) : names entries = members.map Prod.fst := by
  unfold memberEntries at h
  induction members generalizing entries with
  | nil =>
    obtain rfl := Except.ok.inj h
    rfl
  | cons member rest ih =>
    rw [List.mapM_cons] at h
    obtain ⟨entry, hentry, h⟩ := bind_eq_ok_iff.1 h
    obtain ⟨entries, hrest, h⟩ := bind_eq_ok_iff.1 h
    obtain ⟨text, -, rfl⟩ := map_eq_ok_iff.1 hentry
    obtain rfl := Except.ok.inj h
    exact congrArg (member.1 :: ·) (ih hrest)

theorem settingEntries_eq_memberEntries {store : SecretsStore} (hon : store.enabled = true) :
    settingEntries store.settings = memberEntries (storeMembers store) := by
  unfold memberEntries storeMembers
  rw [if_pos hon, List.mapM_map]
  rfl

theorem forall_isUsable_given_iff {name : String} {value : Option String} :
    (∀ entry ∈ CoreFlags.given name value, IsUsable entry.name) ↔
      (value ≠ none → IsUsable name) := by
  cases value <;> simp [CoreFlags.given]

theorem isUsable_core (config : Configuration) :
    ∀ entry ∈ (CoreFlags.ofConfiguration config).entries, IsUsable entry.name := by
  have hnames : ∀ name ∈ ["ZENML_LOGGING_VERBOSITY", "ZENML_ANALYTICS_OPT_IN",
      "ZENML_DEFAULT_PROJECT_NAME", "ZENML_DEFAULT_USER_NAME", "ZENML_AUTH_TYPE",
      "ZENML_ENABLE_IMPLICIT_AUTH_METHODS", "ZENML_SERVER_URL", "ZENML_SERVER_DEPLOYMENT_TYPE",
      "ZENML_STORE_TYPE", "DISABLE_DATABASE_MIGRATION", "ZENML_STORE_SSL_VERIFY_SERVER_CERT"],
      IsUsable name := by
    decide +kernel
  simp only [List.forall_mem_cons] at hnames
  simp only [CoreFlags.entries, List.forall_mem_append, List.forall_mem_cons]
  simp [forall_isUsable_given_iff, hnames]

theorem isUsable_databaseEntries (database : Database) :
    ∀ entry ∈ databaseEntries database, IsUsable entry.name := by
  have hnames : ∀ name ∈ ["ZENML_STORE_POOL_SIZE", "ZENML_STORE_MAX_OVERFLOW",
      "ZENML_STORE_BACKUP_STRATEGY", "ZENML_STORE_BACKUP_DATABASE"], IsUsable name := by
    decide +kernel
  simp only [List.forall_mem_cons] at hnames
  unfold databaseEntries
  split
  · simp only [List.forall_mem_append]
    simp [forall_isUsable_given_iff, hnames]
  · exact List.forall_mem_nil _

/-- A store's own names stand before those of its settings. -/
theorem exists_names_store {start : String} {store : SecretsStore} {off entries : List Entry}
    (hstart : ∀ name ∈ ["TYPE", "AUTH_METHOD", "CLASS_PATH"], IsUsable (start ++ name))
    (hoff : ∀ entry ∈ off, IsUsable entry.name)
    (h : (if store.enabled then storeEntries start store else .ok off) = .ok entries) :
    ∃ own : List Entry, names entries = names own ++ (storeMembers store).map Prod.fst ∧
      ∀ entry ∈ own, IsUsable entry.name := by
  by_cases hon : store.enabled = true
  · rw [if_pos hon, storeEntries, settingEntries_eq_memberEntries hon] at h
    obtain ⟨settings, hsettings, h⟩ := bind_eq_ok_iff.1 h
    obtain rfl := Except.ok.inj h
    simp only [List.forall_mem_cons] at hstart
    refine ⟨⟨start ++ "TYPE", store.backend.label⟩ ::
      (CoreFlags.given (start ++ "AUTH_METHOD") store.authMethod ++
        CoreFlags.given (start ++ "CLASS_PATH") store.classPath), ?_, ?_⟩
    · rw [← names_memberEntries hsettings, ← names_append]
      rfl
    · rw [List.forall_mem_cons, List.forall_mem_append]
      exact ⟨hstart.1, forall_isUsable_given_iff.2 fun _ => hstart.2.1,
        forall_isUsable_given_iff.2 fun _ => hstart.2.2.1⟩
  · obtain rfl := Except.ok.inj ((if_neg hon).symm.trans h)
    have hnone : storeMembers store = [] := if_neg hon
    refine ⟨off, ?_, hoff⟩
    rw [hnone]
    exact (List.append_nil _).symm

namespace Source

variable {config : Configuration} {source : Source}

theorem contribution_eq_error_iff {problem : SourceProblem} :
    source.contribution config = .error problem ↔
      ∃ member, IsFirst (¬ IsScalar ·.2) (source.members config) member ∧
        ValueProblem member.1 member.2 problem := by
  have hscalar {members : List (String × Json)} (h : ∀ member ∈ members, IsScalar member.2) :
      ¬ ∃ member, IsFirst (¬ IsScalar ·.2) members member ∧
        ValueProblem member.1 member.2 problem := by
    rintro ⟨member, hfirst, -⟩
    exact hfirst.of_bad (h member hfirst.mem)
  have hstore {start : String} {store : SecretsStore} {off : List Entry} :
      (if store.enabled then storeEntries start store else .ok off) = .error problem ↔
        ∃ member, IsFirst (¬ IsScalar ·.2) (storeMembers store) member ∧
          ValueProblem member.1 member.2 problem := by
    by_cases hon : store.enabled = true
    · rw [if_pos hon, ← memberEntries_eq_error_iff, ← settingEntries_eq_memberEntries hon]
      unfold storeEntries
      rw [bind_eq_error_iff]
      exact or_iff_left fun ⟨_, _, h⟩ => nomatch h
    · rw [if_neg hon]
      unfold storeMembers
      rw [if_neg hon]
      exact iff_of_false (fun h => nomatch h) (hscalar (List.forall_mem_nil _))
  cases source with
  | core => exact iff_of_false (fun h => nomatch h) (hscalar (List.forall_mem_nil _))
  | database => exact iff_of_false (fun h => nomatch h) (hscalar (List.forall_mem_nil _))
  | secretsStore => exact hstore
  | backupSecretsStore => exact hstore
  | user =>
    refine iff_of_false (fun h => nomatch h) (hscalar ?_)
    exact List.forall_mem_map.2 fun _ _ => trivial

theorem exists_contribution_iff :
    (∃ entries, source.contribution config = .ok entries) ↔
      ∀ member ∈ source.members config, IsScalar member.2 := by
  constructor
  · rintro ⟨entries, hentries⟩ member hmem
    by_cases hscalar : IsScalar member.2
    · exact hscalar
    · obtain ⟨first, hfirst⟩ : ∃ first, IsFirst (¬ IsScalar ·.2) (source.members config) first :=
        exists_isFirst_iff.2 ⟨member, hmem, hscalar⟩
      obtain ⟨problem, hproblem⟩ := (not_isScalar_iff first.1).1 hfirst.of_bad
      exact nomatch hentries.symm.trans (contribution_eq_error_iff.2 ⟨first, hfirst, hproblem⟩)
  · intro hvalues
    cases hentries : source.contribution config with
    | ok entries => exact ⟨entries, rfl⟩
    | error problem =>
      obtain ⟨first, hfirst, -⟩ := contribution_eq_error_iff.1 hentries
      exact absurd (hvalues first hfirst.mem) hfirst.of_bad

/-- All names that a user did not choose can be used. -/
theorem exists_names_contribution {entries : List Entry}
    (h : source.contribution config = .ok entries) :
    ∃ own : List Entry, names entries = names own ++ (source.members config).map Prod.fst ∧
      ∀ entry ∈ own, IsUsable entry.name := by
  cases source with
  | core =>
    obtain rfl := Except.ok.inj h
    exact ⟨_, (List.append_nil _).symm, isUsable_core config⟩
  | database =>
    obtain rfl := Except.ok.inj h
    exact ⟨_, (List.append_nil _).symm, isUsable_databaseEntries config.database⟩
  | secretsStore =>
    have hoff : IsUsable "ZENML_SECRETS_STORE_TYPE" := by decide +kernel
    exact exists_names_store (by decide +kernel) (List.forall_mem_singleton.2 hoff) h
  | backupSecretsStore => exact exists_names_store (by decide +kernel) (List.forall_mem_nil _) h
  | user =>
    obtain rfl := Except.ok.inj h
    refine ⟨[], ?_, List.forall_mem_nil _⟩
    simp [names, members]

/-- The names of a source are checked once its values are known. -/
theorem forM_checkName_eq_error_iff {entries : List Entry} {problem : SourceProblem}
    (h : source.contribution config = .ok entries) :
    entries.forM checkName = .error problem ↔
      ∃ name, IsFirst (¬ IsUsable ·) ((source.members config).map Prod.fst) name ∧
        NameProblem name problem := by
  obtain ⟨own, hnames, hown⟩ := exists_names_contribution h
  have hbad (entry : Entry) : ¬ IsUsable entry.name ↔ ∃ e, checkName entry = .error e := by
    simp only [checkName_eq_error_iff]
    exact not_isUsable_iff
  have hpassed : ∀ name ∈ names own, ¬ ¬ IsUsable name :=
    List.forall_mem_map.2 fun entry hmem hnot => hnot (hown entry hmem)
  have hfirst (name : String) :
      IsFirst (¬ IsUsable ·) ((source.members config).map Prod.fst) name ↔
        ∃ entry, IsFirst (¬ IsUsable ·.name) entries entry ∧ entry.name = name := by
    rw [← isFirst_append_iff hpassed, ← hnames]
    exact isFirst_map_iff
  rw [forM_eq_error_iff hbad]
  constructor
  · rintro ⟨entry, hentry, hproblem⟩
    exact ⟨entry.name, (hfirst _).2 ⟨entry, hentry, rfl⟩, checkName_eq_error_iff.1 hproblem⟩
  · rintro ⟨name, hname, hproblem⟩
    obtain ⟨entry, hentry, rfl⟩ := (hfirst name).1 hname
    exact ⟨entry, hentry, checkName_eq_error_iff.2 hproblem⟩

theorem entries_eq_error_iff {failure : Failure} :
    source.entries config = .error failure ↔
      ∃ problem, MembersProblem (source.members config) problem ∧
        failure = .malformedSource source problem := by
  have hproblem (problem : SourceProblem) :
      (source.contribution config >>= fun entries =>
        entries.forM checkName >>= fun _ => pure entries) = .error problem ↔
        MembersProblem (source.members config) problem := by
    rw [bind_eq_error_iff, contribution_eq_error_iff]
    constructor
    · rintro (⟨member, hfirst, hvalue⟩ | ⟨entries, hentries, h⟩)
      · exact .value hfirst hvalue
      · -- Names are checked only where all values could be read.
        obtain h | ⟨_, -, h⟩ := bind_eq_error_iff.1 h
        · obtain ⟨name, hfirst, hname⟩ := (forM_checkName_eq_error_iff hentries).1 h
          exact .name (exists_contribution_iff.1 ⟨entries, hentries⟩) hfirst hname
        · exact nomatch h
    · intro h
      cases h with
      | value hfirst hvalue => exact .inl ⟨_, hfirst, hvalue⟩
      | name hvalues hfirst hname =>
        obtain ⟨entries, hentries⟩ := exists_contribution_iff.2 hvalues
        exact .inr ⟨entries, hentries, bind_eq_error_iff.2 (.inl
          ((forM_checkName_eq_error_iff hentries).2 ⟨_, hfirst, hname⟩))⟩
  unfold entries
  rw [mapError_eq_error_iff]
  constructor
  · rintro ⟨problem, h, rfl⟩
    exact ⟨problem, (hproblem problem).1 h, rfl⟩
  · rintro ⟨problem, h, rfl⟩
    exact ⟨problem, (hproblem problem).2 h, rfl⟩

theorem isMalformed_iff :
    source.IsMalformed config ↔ ∃ failure, source.entries config = .error failure := by
  simp only [entries_eq_error_iff]
  constructor
  · rintro ⟨member, hmem, hbad⟩
    by_cases hvalues : ∀ member ∈ source.members config, IsScalar member.2
    · have hname : ¬ IsUsable member.1 := hbad.resolve_left fun h => h (hvalues member hmem)
      obtain ⟨name, hfirst⟩ : ∃ name, IsFirst (¬ IsUsable ·)
          ((source.members config).map Prod.fst) name :=
        exists_isFirst_iff.2 ⟨member.1, List.mem_map_of_mem hmem, hname⟩
      obtain ⟨problem, hproblem⟩ := not_isUsable_iff.1 hfirst.of_bad
      exact ⟨_, problem, .name hvalues hfirst hproblem, rfl⟩
    · have hvalue : ∃ member ∈ source.members config, ¬ IsScalar member.2 := by
        simpa using hvalues
      obtain ⟨first, hfirst⟩ := exists_isFirst_iff.2 hvalue
      obtain ⟨problem, hproblem⟩ := (not_isScalar_iff first.1).1 hfirst.of_bad
      exact ⟨_, problem, .value hfirst hproblem, rfl⟩
  · rintro ⟨_, problem, hproblem, -⟩
    cases hproblem with
    | value hfirst _ => exact ⟨_, hfirst.mem, .inl hfirst.of_bad⟩
    | name _ hfirst _ =>
      obtain ⟨member, hmem, rfl⟩ := List.mem_map.1 hfirst.mem
      exact ⟨member, hmem, .inr hfirst.of_bad⟩

theorem isUsable_of_entries {entries : List Entry} (h : source.entries config = .ok entries) :
    ∀ name ∈ names entries, IsUsable name := by
  obtain ⟨given, -, h⟩ := bind_eq_ok_iff.1 (mapError_eq_ok_iff.1 h)
  obtain ⟨⟨⟩, hchecked, h⟩ := bind_eq_ok_iff.1 h
  obtain rfl := Except.ok.inj h
  exact List.forall_mem_map.2 fun entry hmem =>
    checkName_eq_ok_iff.1 (forM_eq_ok_iff.1 hchecked entry hmem)

theorem isMalformed_storeMembers (store : SecretsStore) :
    (∃ member ∈ storeMembers store, ¬ IsScalar member.2 ∨ ¬ IsUsable member.1) ↔
      store.enabled = true ∧
        ∃ setting ∈ store.settings.entries, ¬ IsScalar setting.2.json ∨ ¬ IsUsable setting.1 := by
  unfold storeMembers
  by_cases hon : store.enabled = true
  · rw [if_pos hon]
    constructor
    · rintro ⟨member, hmem, hbad⟩
      obtain ⟨setting, hsetting, rfl⟩ := List.mem_map.1 hmem
      exact ⟨hon, setting, hsetting, hbad⟩
    · rintro ⟨-, setting, hsetting, hbad⟩
      exact ⟨_, List.mem_map_of_mem hsetting, hbad⟩
  · rw [if_neg hon]
    exact iff_of_false (fun ⟨_, hmem, _⟩ => nomatch hmem) fun h => hon h.1

theorem isMalformed_user :
    IsMalformed config .user ↔ ∃ entry ∈ config.environment.entries, ¬ IsUsable entry.1 := by
  constructor
  · rintro ⟨member, hmem, hbad⟩
    obtain ⟨entry, hentry, rfl⟩ := List.mem_map.1 hmem
    exact ⟨entry, hentry, hbad.resolve_left fun h => h trivial⟩
  · rintro ⟨entry, hentry, hbad⟩
    exact ⟨_, List.mem_map_of_mem hentry, .inr hbad⟩

/-- Core flags, the database and stores that are off are never malformed. -/
theorem exists_isMalformed_iff :
    (∃ source ∈ precedence, source.IsMalformed config) ↔
      (∃ store ∈ [config.secretsStore, config.backupSecretsStore], store.enabled = true ∧
        ∃ setting ∈ store.settings.entries, ¬ IsScalar setting.2.json ∨ ¬ IsUsable setting.1) ∨
      ∃ entry ∈ config.environment.entries, ¬ IsUsable entry.1 := by
  have hcore : ¬ IsMalformed config .core := fun ⟨_, hmem, _⟩ => nomatch hmem
  have hdatabase : ¬ IsMalformed config .database := fun ⟨_, hmem, _⟩ => nomatch hmem
  have hsecrets := isMalformed_storeMembers config.secretsStore
  have hbackup := isMalformed_storeMembers config.backupSecretsStore
  rw [← isMalformed_user]
  simp only [precedence, List.mem_cons, List.not_mem_nil, or_false, or_and_right, exists_or,
    exists_eq_left, hcore, hdatabase, false_or, ← hsecrets, ← hbackup, or_assoc]
  rfl

end Source

theorem compose_eq_error_iff {config : Configuration} {failure : Failure} :
    compose config = .error failure ↔
      ∃ source problem, IsFirst (Source.IsMalformed config) Source.precedence source ∧
        MembersProblem (source.members config) problem ∧
        failure = .malformedSource source problem := by
  rw [compose_eq_composeOf, composeOf, map_eq_error_iff,
    mapM_eq_error_iff fun _ => Source.isMalformed_iff]
  simp only [Source.entries_eq_error_iff, exists_and_left]

theorem isUsable_of_compose {config : Configuration} {env : EnvironmentList}
    (h : compose config = .ok env) : ∀ name ∈ names env.entries, IsUsable name := by
  refine of_foldlM_eq_ok (p := fun env => ∀ name ∈ names env.entries, IsUsable name) h
    (List.forall_mem_nil _) fun source _ env env' henv hstep => ?_
  obtain ⟨entries, hentries, rfl⟩ := map_eq_ok_iff.1 hstep
  rw [EnvironmentList.names_setAll, List.forall_mem_append]
  refine ⟨henv, fun name hmem => Source.isUsable_of_entries hentries name ?_⟩
  exact (List.mem_filter.1 (List.mem_eraseDups.1 hmem)).1

/-- An environment is composed if no setting of a store that is on, and no variable of
the user, is unusable; else the first source that has one is blamed for its first. -/
theorem compose_blames_first_fault (config : Configuration) :
    ((∃ failure, compose config = .error failure) ↔
      (∃ store ∈ [config.secretsStore, config.backupSecretsStore], store.enabled = true ∧
        ∃ setting ∈ store.settings.entries, ¬ IsScalar setting.2.json ∨ ¬ IsUsable setting.1) ∨
      ∃ entry ∈ config.environment.entries, ¬ IsUsable entry.1) ∧
    (∀ failure, compose config = .error failure ↔
      ∃ source problem, IsFirst (Source.IsMalformed config) Source.precedence source ∧
        MembersProblem (source.members config) problem ∧
        failure = .malformedSource source problem) ∧
    ∀ env, compose config = .ok env → ∀ name ∈ names env.entries, IsUsable name := by
  refine ⟨?_, fun _ => compose_eq_error_iff, fun _ => isUsable_of_compose⟩
  rw [← Source.exists_isMalformed_iff, ← exists_isFirst_iff]
  constructor
  · rintro ⟨failure, h⟩
    obtain ⟨source, problem, hfirst, -⟩ := compose_eq_error_iff.1 h
    exact ⟨source, hfirst⟩
  · rintro ⟨source, hfirst⟩
    obtain ⟨failure, hfailure⟩ := Source.isMalformed_iff.1 hfirst.of_bad
    obtain ⟨problem, hproblem, rfl⟩ := Source.entries_eq_error_iff.1 hfailure
    exact ⟨_, compose_eq_error_iff.2 ⟨source, problem, hfirst, hproblem, rfl⟩⟩

/-- A value is blamed before a name, and both before those of later sources. -/
example : compose { secretsStore := { enabled := true,
                                      settings := .ofList [("A B", .text ""), ("C", .null)] }
                    environment := .ofList [("=", "")] } =
    .error (.malformedSource .secretsStore (.noValue "C")) := rfl

end ServerManifests.Environment
