import ServerManifests.Environment.Compose
import ServerManifests.Proofs.Success

/-!
Composition of sources as one list. Setting the entries of a list one after the
other keeps the names in the order in which they first occur and gives each name
the value of its last occurrence. Composing sources sets the concatenation of
their entries, if all of them can be used, so configurations whose sources contribute
alike have one environment.
-/
namespace ServerManifests

open Environment
open ServerManifests.Configuration (Database)

namespace Environment

/-- The value of the last entry of a name. -/
def lastValue? (entries : List Entry) (name : String) : Option String :=
  (entries.findRev? (·.name = name)).map (·.value)

theorem lastValue?_cons (entry : Entry) (rest : List Entry) (name : String) :
    lastValue? (entry :: rest) name =
      (lastValue? rest name).or (if entry.name = name then some entry.value else none) := by
  unfold lastValue?
  rw [List.findRev?_eq_find?_reverse, List.findRev?_eq_find?_reverse, List.reverse_cons,
    List.find?_append, List.find?_singleton, Option.map_or]
  by_cases hname : entry.name = name
  · simp [hname]
  · simp [hname]

theorem lastValue?_append (first second : List Entry) (name : String) :
    lastValue? (first ++ second) name =
      (lastValue? second name).or (lastValue? first name) := by
  induction first with
  | nil =>
    have hnil : lastValue? [] name = none := rfl
    rw [List.nil_append, hnil, Option.or_none]
  | cons entry rest ih =>
    rw [List.cons_append, lastValue?_cons, lastValue?_cons, ih, Option.or_assoc]

theorem lastValue?_eq_none_iff {entries : List Entry} {name : String} :
    lastValue? entries name = none ↔ name ∉ names entries := by
  induction entries with
  | nil => simp [lastValue?, names]
  | cons entry rest ih =>
    change _ ↔ name ∉ entry.name :: names rest
    rw [lastValue?_cons, Option.or_eq_none_iff, ih, List.mem_cons]
    by_cases hname : entry.name = name
    · simp [hname]
    · simp [hname, Ne.symm hname]

theorem lastValue?_of_mem {entries : List Entry} {entry : Entry} (h : (names entries).Nodup)
    (hmem : entry ∈ entries) : lastValue? entries entry.name = some entry.value := by
  induction entries with
  | nil => exact nomatch hmem
  | cons first rest ih =>
    obtain ⟨hfirst, hrest⟩ : first.name ∉ names rest ∧ (names rest).Nodup := List.nodup_cons.1 h
    rw [lastValue?_cons]
    obtain rfl | hmem := List.mem_cons.1 hmem
    · rw [lastValue?_eq_none_iff.2 hfirst, if_pos rfl, Option.none_or]
    · rw [ih hrest hmem, Option.some_or]

theorem filter_name_of_mem {entries : List Entry} {entry : Entry} (h : (names entries).Nodup)
    (hmem : entry ∈ entries) : entries.filter (·.name = entry.name) = [entry] := by
  induction entries with
  | nil => exact nomatch hmem
  | cons first rest ih =>
    obtain ⟨hfirst, hrest⟩ : first.name ∉ names rest ∧ (names rest).Nodup := List.nodup_cons.1 h
    obtain rfl | hmem := List.mem_cons.1 hmem
    · have hothers : rest.filter (·.name = entry.name) = [] := by
        apply List.filter_eq_nil_iff.2
        intro other hother hname
        exact hfirst (List.mem_map.2 ⟨other, hother, of_decide_eq_true hname⟩)
      rw [List.filter_cons_of_pos (by simp), hothers]
    · have hname : first.name ≠ entry.name := by
        intro heq
        exact hfirst (List.mem_map.2 ⟨entry, hmem, heq.symm⟩)
      rw [List.filter_cons_of_neg (by simpa using hname)]
      exact ih hrest hmem

end Environment

namespace EnvironmentList

/-- The index and the entries agree on where a name stands. -/
theorem index?_eq_some_iff (env : EnvironmentList) (name : String) (position : Nat) :
    env.index? name = some position ↔ ∃ value, env.entries[position]? = some ⟨name, value⟩ := by
  unfold index?
  rw [env.indexed name position, names, List.getElem?_map, Option.map_eq_some_iff]
  constructor
  · rintro ⟨entry, hentry, rfl⟩
    exact ⟨entry.value, hentry⟩
  · rintro ⟨value, hentry⟩
    exact ⟨_, hentry, rfl⟩

theorem index?_eq_none_iff (env : EnvironmentList) (name : String) :
    env.index? name = none ↔ name ∉ names env.entries := env.indexed.get?_eq_none_iff

/-- What is found by the index is what stands in the entries. -/
theorem get?_eq_some_iff (env : EnvironmentList) (name value : String) :
    env.get? name = some value ↔ ⟨name, value⟩ ∈ env.entries := by
  unfold get?
  rw [Option.bind_eq_some_iff, List.mem_iff_getElem?]
  constructor
  · rintro ⟨position, hposition, hvalue⟩
    obtain ⟨present, hentry⟩ := (index?_eq_some_iff env name position).1 hposition
    rw [hentry] at hvalue
    obtain rfl : present = value := Option.some.inj hvalue
    exact ⟨position, hentry⟩
  · rintro ⟨position, hentry⟩
    refine ⟨position, (index?_eq_some_iff env name position).2 ⟨value, hentry⟩, ?_⟩
    rw [hentry, Option.map_some]

theorem get?_eq_none_iff (env : EnvironmentList) (name : String) :
    env.get? name = none ↔ name ∉ names env.entries := by
  rw [Option.eq_none_iff_forall_ne_some]
  simp only [ne_eq, get?_eq_some_iff]
  constructor
  · intro h hmem
    obtain ⟨entry, hentry, rfl⟩ := List.mem_map.1 hmem
    exact h entry.value hentry
  · intro h value hentry
    exact h (List.mem_map.2 ⟨⟨name, value⟩, hentry, rfl⟩)

theorem filter_name (env : EnvironmentList) (name : String) :
    env.entries.filter (·.name = name) = (env.get? name).toList.map (⟨name, ·⟩) := by
  cases hget : env.get? name with
  | none =>
    have hmem := (get?_eq_none_iff env name).1 hget
    apply List.filter_eq_nil_iff.2
    intro entry hentry hname
    exact hmem (List.mem_map.2 ⟨entry, hentry, of_decide_eq_true hname⟩)
  | some value =>
    have hentry := (get?_eq_some_iff env name value).1 hget
    exact filter_name_of_mem env.distinct hentry

/-- The entries are the names in their order, each with what is found for it. -/
theorem map_entries (env : EnvironmentList) :
    env.entries.map (fun entry => (entry.name, some entry.value)) =
      (names env.entries).map fun name => (name, env.get? name) := by
  rw [names, List.map_map]
  apply List.map_congr_left
  intro entry hentry
  have hvalue : env.get? entry.name = some entry.value :=
    (get?_eq_some_iff env entry.name entry.value).2 hentry
  rw [Function.comp_apply, hvalue]

/-- Names in their order and values settle the entries. -/
theorem eq_entries {env : EnvironmentList} {entries : List Entry}
    (hnames : names entries = names env.entries)
    (hvalues : ∀ entry ∈ entries, env.get? entry.name = some entry.value) :
    entries = env.entries := by
  have hpairs : entries.map (fun entry => (entry.name, some entry.value)) =
      env.entries.map fun entry => (entry.name, some entry.value) := by
    rw [map_entries, ← hnames, names, List.map_map]
    apply List.map_congr_left
    intro entry hentry
    rw [Function.comp_apply, hvalues entry hentry]
  apply (List.map_inj_right _).1 hpairs
  rintro ⟨name, value⟩ ⟨name', value'⟩ heq
  obtain ⟨rfl, hvalue⟩ := Prod.mk.inj heq
  obtain rfl := Option.some.inj hvalue
  rfl

theorem names_set (env : EnvironmentList) (entry : Entry) :
    names (env.set entry).entries =
      if entry.name ∈ names env.entries then names env.entries
      else names env.entries ++ [entry.name] := by
  unfold set getThenSet?
  split
  · next position hposition =>
    obtain ⟨_, hentry⟩ := (index?_eq_some_iff env entry.name position).1 hposition
    have hmem : entry.name ∈ names env.entries :=
      List.mem_map.2 ⟨_, List.mem_of_getElem? hentry, rfl⟩
    rw [if_pos hmem]
    exact names_revalue ..
  · next hnone =>
    rw [if_neg ((index?_eq_none_iff env entry.name).1 hnone)]
    exact names_append ..

theorem get?_set (env : EnvironmentList) (entry : Entry) (name : String) :
    (env.set entry).get? name =
      if entry.name = name then some entry.value else env.get? name := by
  unfold set getThenSet?
  split
  · next position hposition =>
    change (env.index? name).bind (fun place =>
      (revalue position entry.value env.entries)[place]?.map (·.value)) = _
    by_cases hname : entry.name = name
    · subst hname
      obtain ⟨present, hpresent⟩ := (index?_eq_some_iff env entry.name position).1 hposition
      rw [if_pos rfl, hposition, Option.bind_some, revalue, List.getElem?_modify, hpresent]
      simp
    · rw [if_neg hname]
      unfold get?
      cases hplace : env.index? name with
      | none => rfl
      | some place =>
        have hne : position ≠ place := by
          rintro rfl
          obtain ⟨_, hfirst⟩ := (index?_eq_some_iff env entry.name position).1 hposition
          obtain ⟨_, hsecond⟩ := (index?_eq_some_iff env name position).1 hplace
          cases hfirst.symm.trans hsecond
          exact hname rfl
        rw [Option.bind_some, Option.bind_some, revalue, List.getElem?_modify]
        simp [hne]
  · next hnone =>
    change ((env.index.insert entry.name env.size).get? name).bind (fun place =>
      (env.entries ++ [entry])[place]?.map (·.value)) = _
    rw [TextMap.get?_insert]
    by_cases hname : entry.name = name
    · rw [if_pos hname.symm, if_pos hname, Option.bind_some, size, List.getElem?_concat_length]
      rfl
    · rw [if_neg (Ne.symm hname), if_neg hname]
      change (env.index? name).bind _ = env.get? name
      unfold get?
      cases hplace : env.index? name with
      | none => rfl
      | some place =>
        obtain ⟨_, hpresent⟩ := (index?_eq_some_iff env name place).1 hplace
        have hlt : place < env.entries.length := (List.getElem?_eq_some_iff.1 hpresent).1
        rw [Option.bind_some, Option.bind_some, List.getElem?_append_left hlt]

theorem setAll_append (env : EnvironmentList) (first second : List Entry) :
    env.setAll (first ++ second) = (env.setAll first).setAll second := List.foldl_append

/-- New names come after the present ones, in the order of their first occurrence. -/
theorem names_setAll (env : EnvironmentList) (entries : List Entry) :
    names (env.setAll entries).entries =
      names env.entries ++ ((names entries).removeAll (names env.entries)).eraseDups := by
  induction entries generalizing env with
  | nil => exact (List.append_nil _).symm
  | cons entry rest ih =>
    change names ((env.set entry).setAll rest).entries = _
    rw [ih, names_set]
    by_cases known : entry.name ∈ names env.entries
    · have hskip : (names (entry :: rest)).removeAll (names env.entries) =
          (names rest).removeAll (names env.entries) := by
        exact List.filter_cons_of_neg (by simpa using known)
      rw [if_pos known, hskip]
    · have hkeep : (names (entry :: rest)).removeAll (names env.entries) =
          entry.name :: (names rest).removeAll (names env.entries) := by
        exact List.filter_cons_of_pos (by simpa using known)
      have hlater : (names rest).removeAll (names env.entries ++ [entry.name]) =
          ((names rest).removeAll (names env.entries)).filter fun name => !name == entry.name := by
        unfold List.removeAll
        rw [List.filter_filter]
        apply List.filter_congr
        intro name _
        simp [Bool.and_comm, Bool.beq_eq_decide_eq]
      rw [if_neg known, hkeep, hlater, List.eraseDups_cons, List.append_assoc]
      rfl

/-- The last entry of a name gives its value. -/
theorem get?_setAll (env : EnvironmentList) (entries : List Entry) (name : String) :
    (env.setAll entries).get? name = (lastValue? entries name).or (env.get? name) := by
  induction entries generalizing env with
  | nil => rfl
  | cons entry rest ih =>
    change ((env.set entry).setAll rest).get? name = _
    rw [ih, get?_set, lastValue?_cons, Option.or_assoc]
    by_cases hname : entry.name = name
    · rw [if_pos hname, if_pos hname, Option.some_or]
    · rw [if_neg hname, if_neg hname, Option.none_or]

end EnvironmentList

namespace Environment

/-- The environment that some sources give, without the others. -/
def composeOf (config : Configuration) (sources : List Source) : Except Failure EnvironmentList :=
  (sources.mapM (Source.entries config)).map fun parts => .setAll .empty parts.flatten

theorem foldlM_sources (config : Configuration) (sources : List Source)
    (env : EnvironmentList) :
    sources.foldlM (fun (env : EnvironmentList) source =>
      (source.entries config).map env.setAll) env =
      (sources.mapM (Source.entries config)).map fun parts => env.setAll parts.flatten := by
  induction sources generalizing env with
  | nil => rfl
  | cons source rest ih =>
    rw [List.foldlM_cons, List.mapM_cons]
    cases source.entries config with
    | error failure => rfl
    | ok entries =>
      change rest.foldlM _ (env.setAll entries) = _
      rw [ih]
      change _ = ((rest.mapM (Source.entries config)).bind fun parts =>
        Except.ok (entries :: parts)).map _
      cases rest.mapM (Source.entries config) with
      | error failure => rfl
      | ok parts =>
        change Except.ok ((env.setAll entries).setAll parts.flatten) =
          Except.ok (env.setAll (entries ++ parts.flatten))
        rw [EnvironmentList.setAll_append]

theorem compose_eq_composeOf (config : Configuration) :
    compose config = composeOf config Source.precedence :=
  foldlM_sources config Source.precedence .empty

theorem composeOf_eq_ok_iff {config : Configuration} {sources : List Source}
    {env : EnvironmentList} :
    composeOf config sources = .ok env ↔
      ∃ parts, sources.mapM (Source.entries config) = .ok parts ∧
        env = .setAll .empty parts.flatten := by
  unfold composeOf
  cases sources.mapM (Source.entries config) with
  | error failure => simp [Except.map]
  | ok parts => simp [Except.map, eq_comm]

theorem Source.contribution_eq_of_entries {config : Configuration} {source : Source}
    {entries : List Entry} (h : source.entries config = .ok entries) :
    source.contribution config = .ok entries := by
  obtain ⟨given, hgiven, h⟩ := bind_eq_ok_iff.1 (mapError_eq_ok_iff.1 h)
  obtain ⟨⟨⟩, -, h⟩ := bind_eq_ok_iff.1 h
  obtain rfl := Except.ok.inj h
  exact hgiven

theorem Source.entries_congr {first second : Configuration} {source : Source}
    (h : source.contribution first = source.contribution second) :
    source.entries first = source.entries second := by
  unfold Source.entries
  rw [h]

/-- Sources that contribute alike compose alike. -/
theorem compose_congr {first second : Configuration}
    (h : ∀ source : Source, source.contribution first = source.contribution second) :
    compose first = compose second := by
  have hentries : Source.entries first = Source.entries second :=
    funext fun source => source.entries_congr (h source)
  rw [compose_eq_composeOf, compose_eq_composeOf, composeOf, composeOf, hentries]

/-- Two databases show alike in an environment: neither is external, or both are and are
the same but for their credentials, which are no variables. -/
structure DatabasesAlike (first second : Database) : Prop where
  mode : first.isManaged = second.isManaged
  tuning : first.isManaged = true →
    { first with url := none, password := none, sslCa := none } =
      { second with url := none, password := none, sslCa := none }

/-- Two configurations agree on all that the sources look at. -/
structure SourcesAlike (first second : Configuration) : Prop where
  database : DatabasesAlike first.database second.database
  server : CoreFlags.ofConfiguration { first with database := {} } =
    CoreFlags.ofConfiguration { second with database := {} }
  secretsStore : Source.secretsStore.contribution first = Source.secretsStore.contribution second
  backupSecretsStore :
    Source.backupSecretsStore.contribution first = Source.backupSecretsStore.contribution second
  user : first.environment = second.environment

theorem databaseEntries_congr {first second : Database} (h : DatabasesAlike first second) :
    databaseEntries first = databaseEntries second := by
  unfold databaseEntries
  rw [← h.mode]
  cases hmanaged : first.isManaged with
  | false => rfl
  | true =>
    obtain ⟨-, -, -, -, hpool, hoverflow, hstrategy, hbackup⟩ :=
      Database.mk.inj (h.tuning hmanaged)
    rw [hpool, hoverflow, hstrategy, hbackup]

theorem SourcesAlike.coreFlags_eq {first second : Configuration} (h : SourcesAlike first second) :
    CoreFlags.ofConfiguration first = CoreFlags.ofConfiguration second := by
  obtain ⟨hverbosity, hanalytics, hproject, husername, hscheme, himplicit, hurl, htype, -⟩ :=
    CoreFlags.mk.inj h.server
  have hcert : (CoreFlags.ofConfiguration first).sslVerifyServerCert =
      (CoreFlags.ofConfiguration second).sslVerifyServerCert := by
    unfold CoreFlags.ofConfiguration
    rw [← h.database.mode]
    cases hmanaged : first.database.isManaged with
    | false => rfl
    | true =>
      obtain ⟨-, -, -, hcert, -⟩ := Database.mk.inj (h.database.tuning hmanaged)
      rw [hcert]
  refine (CoreFlags.mk.injEq ..).mpr ⟨hverbosity, hanalytics, hproject, husername, hscheme,
    himplicit, hurl, htype, ?_, ?_, hcert⟩
  · rw [h.database.mode]
  · rw [h.database.mode]

theorem SourcesAlike.compose_eq {first second : Configuration} (h : SourcesAlike first second) :
    compose first = compose second := by
  apply compose_congr
  intro source
  cases source with
  | core => exact congrArg (fun flags => Except.ok flags.entries) h.coreFlags_eq
  | database => exact congrArg Except.ok (databaseEntries_congr h.database)
  | secretsStore => exact h.secretsStore
  | backupSecretsStore => exact h.backupSecretsStore
  | user => rw [Source.contribution, h.user, Source.contribution]

/-- Every source of a composition can be used. -/
theorem exists_entries_of_compose {config : Configuration} {env : EnvironmentList}
    (h : compose config = .ok env) (source : Source) :
    ∃ entries, source.entries config = .ok entries := by
  rw [compose_eq_composeOf] at h
  obtain ⟨parts, hparts, -⟩ := composeOf_eq_ok_iff.1 h
  exact exists_of_mapM_eq_ok hparts (by cases source <;> decide)

/-- A composition fails for one of its sources only. -/
theorem exists_of_compose_eq_error {config : Configuration} {failure : Failure}
    (h : compose config = .error failure) :
    ∃ source problem, failure = .malformedSource source problem := by
  rw [compose_eq_composeOf] at h
  obtain ⟨source, -, hsource⟩ := exists_of_mapM_eq_error (map_eq_error_iff.1 h)
  obtain ⟨problem, -, rfl⟩ := mapError_eq_error_iff.1 hsource
  exact ⟨source, problem, rfl⟩

end Environment

end ServerManifests
