import Mathlib.Data.List.TakeWhile
import ServerManifests.Proofs.Values.Override

/-!
Overrides as changes of a tree in place. The walk along a path puts in a missing
parent before it looks at what comes after, so it could leave one behind where the
path cannot be walked to its end. It does not: below a parent that was put in all is
new, and what is new can be walked. So an override does all of its work or nothing,
and it fails exactly where a value that is no mapping stands on its path.
-/
namespace ServerManifests.Values

open Yaml Value

/-- Changes the entries of a mapping in place, under any tags, and tells whether the
change came to its end. -/
def changeEntries (change : Entries → Entries × Bool) : Value → Value × Bool
  | .map entries => (.map (change entries).1, (change entries).2)
  | .tagged tag value =>
    (.tagged tag (changeEntries change value).1, (changeEntries change value).2)
  | value => (value, false)

/-- Puts in an empty mapping for a key that is not there. -/
def ensureParent (entries : Entries) (key : Value) : Entries :=
  match entries.find? key with
  | some _ => entries
  | none => entries ++ [(key, .map [])]

/-- Walks to the last key of a path and sets it there. A parent that is missing is put
in when the walk comes to it, before the rest of the path is walked. Gives the tree
that is left, and whether the walk came to its end. -/
def assignInPlace (value : Value) : (path : List String) → Value → Value × Bool
  | [], root => (root, false)
  | [key], root => changeEntries (fun entries => (entries.assign (.text key) value, true)) root
  | key :: rest, root =>
    changeEntries (fun entries =>
      let entries := ensureParent entries (.text key)
      let (child, done) := assignInPlace value rest ((entries.find? (.text key)).getD .null)
      (entries.replace (.text key) child, done)) root

/-- An override as a change of the tree in place: the tree that is left, with the
failure if there is one. -/
def overrideInPlace (root : Value) (expression : String) : Value × Except OverrideError Unit :=
  match splitAssignment? expression with
  | none => (root, .error .noAssignment)
  | some (path, raw) =>
    let keys := pathKeys path
    if keys.any String.isEmpty then (root, .error .emptyKey)
    else match assignInPlace (scalarOf raw) keys root with
      | (root, true) => (root, .ok ())
      | (root, false) => (root, .error .crossesValue)

/-- On the way to the last key of a path there is a value that is no mapping. -/
def Blocked (path : List String) (root : Value) : Prop :=
  ∃ before after value, path = before ++ after ∧ after ≠ [] ∧ reach? before root = some value ∧
    ∀ entries, value.untagged ≠ .map entries

theorem not_blocked_nil (root : Value) : ¬Blocked [] root := by
  rintro ⟨before, after, value, hpath, hafter, -⟩
  exact hafter (List.append_eq_nil_iff.1 hpath.symm).2

/-- A path is blocked at its root or behind its first key. -/
theorem blocked_cons_iff {key : String} {rest : List String} {root : Value} :
    Blocked (key :: rest) root ↔ (∀ entries, root.untagged ≠ .map entries) ∨
      ∃ (entries : Entries) (child : Value), root.untagged = .map entries ∧
        entries.find? (.text key) = some child ∧ Blocked rest child := by
  constructor
  · rintro ⟨before, after, value, hpath, hafter, hreach, hvalue⟩
    cases before with
    | nil =>
      obtain rfl := Option.some.inj hreach
      exact .inl hvalue
    | cons first before =>
      obtain ⟨rfl, rfl⟩ := List.cons.inj hpath
      rw [reach?] at hreach
      split at hreach
      · next entries hentries =>
        obtain ⟨child, hchild, hreach⟩ := Option.bind_eq_some_iff.1 hreach
        exact .inr ⟨entries, child, hentries, hchild, before, after, value, rfl, hafter, hreach,
          hvalue⟩
      · cases hreach
  · rintro (hroot | ⟨entries, child, hentries, hchild, hblocked⟩)
    · exact ⟨[], key :: rest, root, rfl, List.cons_ne_nil key rest, rfl, hroot⟩
    · obtain ⟨before, after, value, rfl, hafter, hreach, hvalue⟩ := hblocked
      refine ⟨key :: before, after, value, rfl, hafter, ?_, hvalue⟩
      rw [reach?, hentries]
      exact Option.bind_eq_some_iff.2 ⟨child, hchild, hreach⟩

/-- In a new mapping nothing blocks a path. -/
theorem not_blocked_new (path : List String) : ¬Blocked path (.map []) := by
  cases path with
  | nil => exact not_blocked_nil _
  | cons key rest =>
    rw [blocked_cons_iff]
    rintro (hroot | ⟨entries, child, hentries, hchild, -⟩)
    · exact hroot [] rfl
    · obtain rfl := Value.map.inj hentries
      cases hchild

theorem withEntries?_eq_none_iff {change : Entries → Option Entries} {value : Value} :
    withEntries? change value = none ↔
      ∀ entries, value.untagged = .map entries → change entries = none := by
  constructor
  · intro hnone entries hentries
    by_contra hsome
    obtain ⟨changed, hchanged⟩ := Option.ne_none_iff_exists'.1 hsome
    obtain ⟨value', hvalue', -⟩ := exists_withEntries? hentries hchanged
    rw [hnone] at hvalue'
    cases hvalue'
  · intro hall
    by_contra hsome
    obtain ⟨value', hvalue'⟩ := Option.ne_none_iff_exists'.1 hsome
    obtain ⟨entries, changed, hentries, hchanged, -⟩ := withEntries?_eq_some hvalue'
    rw [hall entries hentries] at hchanged
    cases hchanged

/-- A path cannot be walked to its end exactly if something blocks it. -/
theorem assignAt?_eq_none_iff {value root : Value} {path : List String} (hpath : path ≠ []) :
    assignAt? value path root = none ↔ Blocked path root := by
  induction path generalizing root with
  | nil => exact absurd rfl hpath
  | cons key rest ih =>
    rw [blocked_cons_iff]
    cases rest with
    | nil =>
      refine withEntries?_eq_none_iff.trans ?_
      simp [not_blocked_nil]
    | cons next rest =>
      have hchild (entries : Entries) :
          (assignAt? value (next :: rest) ((entries.find? (.text key)).getD (.map []))).map
              (entries.insert (.text key) ·) = none ↔
            ∃ child, entries.find? (.text key) = some child ∧ Blocked (next :: rest) child := by
        rw [Option.map_eq_none_iff, ih (List.cons_ne_nil next rest)]
        cases entries.find? (.text key) with
        | none => simp [not_blocked_new]
        | some child => simp
      refine withEntries?_eq_none_iff.trans ?_
      simp only [hchild]
      by_cases hmap : ∃ entries, root.untagged = .map entries
      · obtain ⟨entries, hentries⟩ := hmap
        simp [hentries]
      · rw [not_exists] at hmap
        simp [hmap]

/-- A change in place of the entries of a mapping leaves the whole as it was where the
change is refused, if it leaves the entries so. -/
theorem changeEntries_eq {change : Entries → Entries × Bool} {change? : Entries → Option Entries}
    {root : Value}
    (h : ∀ entries, root.untagged = .map entries →
      change entries = ((change? entries).getD entries, (change? entries).isSome)) :
    changeEntries change root =
      ((withEntries? change? root).getD root, (withEntries? change? root).isSome) := by
  induction root using Value.untagged.induct with
  | case1 tag value ih =>
    rw [changeEntries, ih h]
    cases hvalue : withEntries? change? value <;> simp [withEntries?, hvalue]
  | case2 value hnot =>
    cases value with
    | map entries =>
      rw [changeEntries, h entries rfl]
      cases hentries : change? entries <;> simp [withEntries?, hentries]
    | tagged tag value => exact absurd rfl (hnot tag value)
    | _ => rfl

/-- A parent that is put in and then set is an entry that is inserted. -/
theorem replace_ensureParent (entries : Entries) (key child : Value) :
    (ensureParent entries key).replace key child = entries.insert key child := by
  unfold ensureParent Entries.insert
  cases hfind : entries.find? key with
  | some present => rfl
  | none =>
    have hothers : ∀ e ∈ entries, (if e.1.agrees key then (e.1, child) else e) = id e := by
      intro e he
      rw [Entries.find?_eq_none_iff.1 hfind e he]
      rfl
    have hkept : Entries.replace entries key child = entries :=
      (List.map_congr_left hothers).trans (List.map_id entries)
    have hnew : Entries.replace [(key, .map [])] key child = [(key, child)] := by
      simp [Entries.replace, agrees_self]
    calc
      Entries.replace (entries ++ [(key, .map [])]) key child =
          Entries.replace entries key child ++ Entries.replace [(key, .map [])] key child := by
        unfold Entries.replace
        exact List.map_append
      _ = entries ++ [(key, child)] := by rw [hkept, hnew]

/-- The walk in place gives what the assignment gives, and where the path is blocked it
leaves the tree as it was. -/
theorem assignInPlace_eq {value root : Value} {path : List String} (hroot : root.WellFormed) :
    assignInPlace value path root =
      ((assignAt? value path root).getD root, (assignAt? value path root).isSome) := by
  induction path generalizing root with
  | nil => rfl
  | cons key rest ih =>
    cases rest with
    | nil => exact changeEntries_eq fun entries _ => rfl
    | cons next rest =>
      refine changeEntries_eq fun entries hentries => ?_
      have hwell : (Value.map entries).WellFormed := hentries ▸ Everywhere.untagged hroot
      dsimp only
      rw [replace_ensureParent]
      cases hfind : Entries.find? entries (.text key) with
      | none =>
        -- A parent was put in, and the rest of the path is walked in a new mapping.
        have hnew : Entries.find? (ensureParent entries (.text key)) (.text key) =
            some (.map []) := by
          unfold ensureParent
          rw [hfind]
          dsimp only
          rw [Entries.find?_append, hfind, Entries.find?_cons, if_pos (agrees_self _)]
          rfl
        have hwellNew : (Value.map []).WellFormed :=
          everywhere_map_iff.2 ⟨List.Pairwise.nil, fun e he => absurd he List.not_mem_nil⟩
        have hopen : ¬Blocked (next :: rest) (.map []) := not_blocked_new _
        have hassigned : assignAt? value (next :: rest) (.map []) ≠ none := fun hnone =>
          hopen ((assignAt?_eq_none_iff (List.cons_ne_nil next rest)).1 hnone)
        obtain ⟨child, hchild⟩ := Option.ne_none_iff_exists'.1 hassigned
        rw [hnew, Option.getD_some, Option.getD_none, ih hwellNew, hchild]
        rfl
      | some present =>
        have hpresent : present.WellFormed := Everywhere.find? hwell hfind
        have hsame : ensureParent entries (.text key) = entries := by
          unfold ensureParent
          rw [hfind]
        rw [hsame, hfind, Option.getD_some, Option.getD_some, ih hpresent]
        cases assignAt? value (next :: rest) present with
        | some child => rfl
        | none =>
          have hself : Entries.insert entries (.text key) present = entries := by
            unfold Entries.insert
            rw [hfind]
            exact hwell.here.replace_self hfind
          simp [hself]

/-- An expression is an assignment if it has an equals sign, and the first one splits it. -/
theorem splitAssignment?_eq_some_iff {expression path raw : String} :
    splitAssignment? expression = some (path, raw) ↔
      expression = path ++ "=" ++ raw ∧ '=' ∉ path.toList := by
  constructor
  · intro hsplit
    unfold splitAssignment? at hsplit
    dsimp only at hsplit
    split at hsplit
    · cases hsplit
    · next c rest hrest =>
      obtain ⟨rfl, rfl⟩ := Prod.mk.inj (Option.some.inj hsplit)
      have hc := List.head?_dropWhile_not (· ≠ '=') expression.toList
      rw [hrest] at hc
      obtain rfl : c = '=' := by simpa using hc
      constructor
      · rw [← String.toList_inj]
        calc
          expression.toList = expression.toList.takeWhile (· ≠ '=') ++ '=' :: rest := by
            rw [← hrest, List.takeWhile_append_dropWhile]
          _ = _ := by simp
      · intro hmem
        rw [String.toList_ofList] at hmem
        simpa using List.mem_takeWhile_imp hmem
  · rintro ⟨rfl, hpath⟩
    have hbefore : ∀ c ∈ path.toList, decide (c ≠ '=') = true := fun c hc =>
      decide_eq_true fun heq => hpath (heq ▸ hc)
    have hlist : (path ++ "=" ++ raw).toList = path.toList ++ '=' :: raw.toList := by simp
    have hdrop : (path ++ "=" ++ raw).toList.dropWhile (· ≠ '=') = '=' :: raw.toList := by
      rw [hlist, List.dropWhile_append_of_pos hbefore]
      rfl
    have htake : (path ++ "=" ++ raw).toList.takeWhile (· ≠ '=') = path.toList := by
      rw [hlist, List.takeWhile_append_of_pos hbefore, List.takeWhile_cons]
      exact List.append_nil _
    unfold splitAssignment?
    dsimp only
    rw [hdrop, htake]
    simp

theorem splitAssignment?_eq_none_iff {expression : String} :
    splitAssignment? expression = none ↔ '=' ∉ expression.toList := by
  unfold splitAssignment?
  dsimp only
  split
  · next hrest =>
    have hall := List.dropWhile_eq_nil_iff.1 hrest
    refine iff_of_true rfl fun hmem => ?_
    simpa using hall '=' hmem
  · next c rest hrest =>
    refine iff_of_false (fun h => nomatch h) fun hnot => ?_
    have hnil : expression.toList.dropWhile (· ≠ '=') = [] :=
      List.dropWhile_eq_nil_iff.2 fun c hc => decide_eq_true fun heq => hnot (heq ▸ hc)
    rw [hrest] at hnil
    cases hnil

/-- Why an override fails. An equals sign belongs to the value if another one stands
before it. -/
inductive Fault (root : Value) (expression : String) : OverrideError → Prop
  | noAssignment (missing : '=' ∉ expression.toList) : Fault root expression .noAssignment
  | emptyKey {path raw : String} (split : expression = path ++ "=" ++ raw)
      (first : '=' ∉ path.toList) (empty : "" ∈ pathKeys path) : Fault root expression .emptyKey
  | crossesValue {path raw : String} (split : expression = path ++ "=" ++ raw)
      (first : '=' ∉ path.toList) (named : "" ∉ pathKeys path)
      (blocked : Blocked (pathKeys path) root) : Fault root expression .crossesValue

theorem any_isEmpty_iff {keys : List String} : keys.any String.isEmpty = true ↔ "" ∈ keys := by
  simp [List.any_eq_true]

theorem applyOverride_eq_error_iff {root : Value} {expression : String} {error : OverrideError} :
    applyOverride root expression = .error error ↔ Fault root expression error := by
  constructor
  · intro h
    unfold applyOverride at h
    cases hsplit : splitAssignment? expression with
    | none =>
      rw [hsplit] at h
      obtain rfl := Except.error.inj h
      exact .noAssignment (splitAssignment?_eq_none_iff.1 hsplit)
    | some assignment =>
      obtain ⟨path, raw⟩ := assignment
      obtain ⟨hexpression, hpath⟩ := splitAssignment?_eq_some_iff.1 hsplit
      rw [hsplit] at h
      dsimp only at h
      split at h
      · next hempty =>
        obtain rfl := Except.error.inj h
        exact .emptyKey hexpression hpath (any_isEmpty_iff.1 hempty)
      · next hempty =>
        cases hassign : assignAt? (scalarOf raw) (pathKeys path) root with
        | some root' =>
          rw [hassign] at h
          cases h
        | none =>
          rw [hassign] at h
          obtain rfl := Except.error.inj h
          refine .crossesValue hexpression hpath (fun hmem => hempty (any_isEmpty_iff.2 hmem)) ?_
          exact (assignAt?_eq_none_iff (pathKeys_ne_nil path)).1 hassign
  · intro h
    unfold applyOverride
    cases h with
    | noAssignment missing => rw [splitAssignment?_eq_none_iff.2 missing]
    | emptyKey split first empty =>
      rw [splitAssignment?_eq_some_iff.2 ⟨split, first⟩]
      exact if_pos (any_isEmpty_iff.2 empty)
    | crossesValue split first named blocked =>
      rw [splitAssignment?_eq_some_iff.2 ⟨split, first⟩]
      dsimp only
      rw [if_neg (fun hempty => named (any_isEmpty_iff.1 hempty)),
        (assignAt?_eq_none_iff (pathKeys_ne_nil _)).2 blocked]

/-- An override that fails, for any reason there is, leaves the tree as it was, however
far the walk along its path came; one that does not is carried out as a whole. -/
theorem override_all_or_nothing (root : Value) (expression : String) (hroot : root.WellFormed) :
    (∀ error, applyOverride root expression = .error error ↔ Fault root expression error) ∧
      overrideInPlace root expression =
        match applyOverride root expression with
        | .ok root' => (root', .ok ())
        | .error error => (root, .error error) := by
  refine ⟨fun error => applyOverride_eq_error_iff, ?_⟩
  unfold overrideInPlace applyOverride
  cases splitAssignment? expression with
  | none => rfl
  | some assignment =>
    obtain ⟨path, raw⟩ := assignment
    dsimp only
    rw [assignInPlace_eq hroot]
    by_cases hempty : (pathKeys path).any String.isEmpty
    · rw [if_pos hempty, if_pos hempty]
    · rw [if_neg hempty, if_neg hempty]
      cases assignAt? (scalarOf raw) (pathKeys path) root <;> rfl

/-- The path crosses the number at `a.b`, behind a mapping that is there. -/
theorem override_all_or_nothing_of_number :
    let root : Value := .map [(.text "a", .map [(.text "b", .int 1)])]
    root.WellFormed ∧ Fault root "a.b.c.d=1" .crossesValue ∧
      overrideInPlace root "a.b.c.d=1" = (root, .error .crossesValue) := by
  intro root
  have hroot : root.WellFormed := by
    refine everywhere_map_iff.2 ⟨List.pairwise_singleton .., fun e he => ?_⟩
    obtain rfl := List.mem_singleton.1 he
    refine ⟨wellFormed_of_isScalar trivial, everywhere_map_iff.2 ⟨List.pairwise_singleton .., ?_⟩⟩
    intro e he
    obtain rfl := List.mem_singleton.1 he
    exact ⟨wellFormed_of_isScalar trivial, wellFormed_of_isScalar trivial⟩
  have hfails : applyOverride root "a.b.c.d=1" = .error .crossesValue := by rfl
  obtain ⟨hfault, hplace⟩ := override_all_or_nothing root "a.b.c.d=1" hroot
  rw [hfails] at hplace
  exact ⟨hroot, (hfault .crossesValue).1 hfails, hplace⟩

end ServerManifests.Values
