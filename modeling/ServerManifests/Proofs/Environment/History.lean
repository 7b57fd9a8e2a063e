import ServerManifests.Proofs.Environment.Composition

/-!
An environment list as a map in the order of insertion. Whatever has been set on
an empty list, the list tells of each name that it came up, where it first came
up among the others, and the value that it was given last.
-/
namespace ServerManifests.EnvironmentList

open Environment

/-- A list is, in every one of its operations, the map that the entries of a
history give: their names by first occurrence, each with its last value. -/
structure Recalls (env : EnvironmentList) (history : List Entry) : Prop where
  distinct : (names env.entries).Nodup
  names_eq : names env.entries = (names history).eraseDups
  position_iff : ∀ name position, env.index.get? name = some position ↔
    ∃ value, env.entries[position]? = some ⟨name, value⟩
  get?_eq : ∀ name, env.get? name = lastValue? history name
  listing : env.entries.map (fun entry => (entry.name, some entry.value)) =
    (names history).eraseDups.map fun name => (name, lastValue? history name)
  size_eq : env.size = (names history).eraseDups.length
  isEmpty_iff : env.isEmpty ↔ history = []
  /-- Setting a name that came up before gives its value and adds nothing. -/
  set_known : ∀ entry, entry.name ∈ names history →
    (∃ value, (env.getThenSet? entry).1 = some value ∧
      lastValue? history entry.name = some value) ∧
    (env.set entry).size = env.size
  /-- Setting another name gives no value and adds one entry. -/
  set_new : ∀ entry, entry.name ∉ names history →
    (env.getThenSet? entry).1 = none ∧ (env.set entry).size = env.size + 1

theorem getThenSet?_fst (env : EnvironmentList) (entry : Entry) :
    (env.getThenSet? entry).1 = env.get? entry.name := by
  unfold getThenSet? get?
  split
  · next position hposition => rw [hposition, Option.bind_some]
  · next hnone =>
    change none = (env.index? entry.name).bind _
    rw [hnone, Option.bind_none]

theorem size_eq_length_names (env : EnvironmentList) : env.size = (names env.entries).length :=
  List.length_map .. |>.symm

theorem size_set (env : EnvironmentList) (entry : Entry) :
    (env.set entry).size =
      if entry.name ∈ names env.entries then env.size else env.size + 1 := by
  rw [size_eq_length_names, size_eq_length_names, names_set]
  split
  · rfl
  · rw [List.length_append, List.length_singleton]

/-- The names in their order and the values of all names settle every operation. -/
theorem Recalls.of_names_of_get? {env : EnvironmentList} {history : List Entry}
    (hnames : names env.entries = (names history).eraseDups)
    (hget : ∀ name, env.get? name = lastValue? history name) : env.Recalls history where
  distinct := env.distinct
  names_eq := hnames
  position_iff := index?_eq_some_iff env
  get?_eq := hget
  listing := by
    rw [map_entries, hnames]
    simp only [hget]
  size_eq := by rw [size_eq_length_names, hnames]
  isEmpty_iff := by
    have hmap : env.entries = [] ↔ names env.entries = [] := List.map_eq_nil_iff.symm
    rw [isEmpty, List.isEmpty_iff, hmap, hnames]
    cases history with
    | nil => simp [names]
    | cons entry rest =>
      change (entry.name :: names rest).eraseDups = [] ↔ _
      simp [List.eraseDups_cons]
  set_known := by
    intro entry hknown
    have hpresent : entry.name ∈ names env.entries := by
      rw [hnames]
      exact List.mem_eraseDups.2 hknown
    refine ⟨?_, by rw [size_set, if_pos hpresent]⟩
    cases hvalue : lastValue? history entry.name with
    | none => exact absurd hknown (lastValue?_eq_none_iff.1 hvalue)
    | some value =>
      refine ⟨value, ?_, rfl⟩
      rw [getThenSet?_fst, hget, hvalue]
  set_new := by
    intro entry hnew
    have habsent : entry.name ∉ names env.entries := by
      rw [hnames]
      exact fun hmem => hnew (List.mem_eraseDups.1 hmem)
    refine ⟨?_, by rw [size_set, if_neg habsent]⟩
    rw [getThenSet?_fst, hget]
    exact lastValue?_eq_none_iff.2 hnew

/-- One more entry is one more in the history. -/
theorem Recalls.set {env : EnvironmentList} {history : List Entry} (h : env.Recalls history)
    (entry : Entry) : (env.set entry).Recalls (history ++ [entry]) := by
  apply Recalls.of_names_of_get?
  · rw [names_set, names_append, List.eraseDups_append, h.names_eq]
    by_cases hknown : entry.name ∈ names history
    · have hskip : (names [entry]).removeAll (names history) = [] :=
        List.filter_cons_of_neg (by simpa using hknown)
      rw [if_pos (List.mem_eraseDups.2 hknown), hskip, List.eraseDups_nil, List.append_nil]
    · have hkeep : (names [entry]).removeAll (names history) = [entry.name] :=
        List.filter_cons_of_pos (by simpa using hknown)
      rw [if_neg (fun hmem => hknown (List.mem_eraseDups.1 hmem)), hkeep]
      rfl
  · intro name
    rw [get?_set, h.get?_eq, lastValue?_append, lastValue?_cons]
    have hnil : lastValue? [] name = none := rfl
    rw [hnil, Option.none_or]
    by_cases hname : entry.name = name
    · rw [if_pos hname, if_pos hname, Option.some_or]
    · rw [if_neg hname, if_neg hname, Option.none_or]

theorem Recalls.setAll {env : EnvironmentList} {history : List Entry} (h : env.Recalls history)
    (entries : List Entry) : (env.setAll entries).Recalls (history ++ entries) := by
  induction entries generalizing env history with
  | nil =>
    rw [List.append_nil]
    exact h
  | cons entry rest ih =>
    have hrest := ih (h.set entry)
    rw [List.append_assoc, List.singleton_append] at hrest
    exact hrest

theorem recalls_empty : empty.Recalls [] := .of_names_of_get? rfl fun _ => rfl

/-- Whatever is set on a new list, the list is the map of all that was set. -/
theorem recalls_setAll_empty (history : List Entry) : (empty.setAll history).Recalls history :=
  recalls_empty.setAll history

example :
    let env := empty.setAll [⟨"A", "1"⟩, ⟨"B", "2"⟩, ⟨"A", "3"⟩]
    env.entries = [⟨"A", "3"⟩, ⟨"B", "2"⟩] ∧ env.index? "B" = some 1 := by decide +kernel

end ServerManifests.EnvironmentList
