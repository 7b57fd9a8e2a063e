import ServerManifests.Proofs.Values.Merge
import ServerManifests.Proofs.Yaml.Document
import ServerManifests.Values.Override

/-!
Overrides as layers. On a tree without tags an override that is accepted does
what merging a document does, the document that has the value at the end of the
path and nothing else.
-/
namespace ServerManifests.Values

open Yaml Value

/-- A value below a path of keys, in mappings of one entry each. -/
def nest : List String → Value → Value
  | [], value => value
  | key :: rest, value => .map [(.text key, nest rest value)]

/-- The document that an override stands for, if it is an assignment. -/
def overrideLayer? (expression : String) : Option Value :=
  (splitAssignment? expression).map fun (path, raw) => nest (pathKeys path) (scalarOf raw)

/-- The value at the end of a path, looking through tags. -/
def reach? : List String → Value → Option Value
  | [], value => some value
  | name :: rest, value =>
    match value.untagged with
    | .map es => (Entries.find? es (.text name)).bind (reach? rest)
    | _ => none

theorem pathKeys_ne_nil (path : String) : pathKeys path ≠ [] := by
  unfold pathKeys
  intro h
  exact splitPath_ne_nil path.toList (List.map_eq_nil_iff.1 h)

theorem scalarOf_isScalar (raw : String) : (scalarOf raw).IsScalar := by
  unfold scalarOf
  split
  · trivial
  · split
    · trivial
    · trivial
    · split <;> trivial
    · split <;> trivial
    · trivial

theorem not_map_of_isScalar {value : Value} (h : value.IsScalar) (entries : Entries) :
    value ≠ .map entries := by
  rintro rfl
  exact h

theorem noTag_of_isScalar {value : Value} (h : value.IsScalar) : value.NoTag := by
  cases value with
  | tagged tag value => exact h.elim
  | _ => exact trivial

theorem scalarOf_null : scalarOf "null" = .null :=
  (isNull_iff_of_noTag (noTag_of_isScalar (scalarOf_isScalar _))).1 (by decide +kernel)

theorem wellFormed_nest {value : Value} (h : value.WellFormed) (path : List String) :
    (nest path value).WellFormed := by
  induction path with
  | nil => exact h
  | cons key rest ih =>
    refine everywhere_map_iff.2 ⟨List.pairwise_singleton .., fun e he => ?_⟩
    obtain rfl := List.mem_singleton.1 he
    exact ⟨wellFormed_of_isScalar trivial, ih⟩

theorem noTag_nest {value : Value} (h : value.Everywhere NoTag) (path : List String) :
    (nest path value).Everywhere NoTag := by
  induction path with
  | nil => exact h
  | cons key rest ih =>
    refine everywhere_map_iff.2 ⟨trivial, fun e he => ?_⟩
    obtain rfl := List.mem_singleton.1 he
    exact ⟨everywhere_of_isScalar trivial trivial, ih⟩

theorem merge_map_singleton (base : Entries) (key value : Value) :
    merge (.map base) (.map [(key, value)]) = .map (mergeEntry base key value) := by
  rw [merge_map, mergeEntries_cons, mergeEntries_nil]

theorem assign_eq_mergeEntry {value : Value} (hvalue : value.IsScalar) (base : Entries)
    (key : Value) : base.assign key value = mergeEntry base key value := by
  unfold mergeEntry Entries.assign
  cases base.find? key with
  | none => rfl
  | some present => simp [merge_overlay_not_map (not_map_of_isScalar hvalue)]

/-- A single mapping below a key is merged into what the key has, which counts as
an empty mapping if there is nothing. -/
theorem mergeEntry_singleton (base : Entries) (key key' value : Value) :
    mergeEntry base key (.map [(key', value)]) =
      base.insert key (merge ((base.find? key).getD (.map [])) (.map [(key', value)])) := by
  unfold mergeEntry Entries.insert
  cases base.find? key with
  | none =>
    have hempty : merge (.map []) (.map [(key', value)]) = .map [(key', value)] :=
      merge_map_singleton ..
    simp [hempty]
  | some present =>
    have hnull : (Value.map [(key', value)]).isNull = false := rfl
    simp [hnull]

/-- Entries are changed under any tags, where they are read. -/
theorem withEntries?_eq_some {change : Entries → Option Entries} {value value' : Value}
    (h : withEntries? change value = some value') :
    ∃ es es', value.untagged = .map es ∧ change es = some es' ∧ value'.untagged = .map es' := by
  induction value using Value.untagged.induct generalizing value' with
  | case1 tag value ih =>
    obtain ⟨content, hcontent, rfl⟩ := Option.map_eq_some_iff.1 h
    obtain ⟨es, es', hes, hchange, hes'⟩ := ih hcontent
    exact ⟨es, es', hes, hchange, hes'⟩
  | case2 value hnot =>
    cases value with
    | map entries =>
      obtain ⟨changed, hchange, rfl⟩ := Option.map_eq_some_iff.1 h
      exact ⟨entries, changed, rfl, hchange, rfl⟩
    | tagged tag value => exact absurd rfl (hnot tag value)
    | _ => cases h

theorem exists_withEntries? {change : Entries → Option Entries} {value : Value} {es es' : Entries}
    (hes : value.untagged = .map es) (hchange : change es = some es') :
    ∃ value', withEntries? change value = some value' ∧ value'.untagged = .map es' := by
  induction value using Value.untagged.induct with
  | case1 tag value ih =>
    obtain ⟨value', hvalue', hes'⟩ := ih hes
    exact ⟨.tagged tag value', Option.map_eq_some_iff.2 ⟨value', hvalue', rfl⟩, hes'⟩
  | case2 value hnot =>
    cases value with
    | map entries =>
      obtain rfl := Value.map.inj hes
      exact ⟨.map es', Option.map_eq_some_iff.2 ⟨es', hchange, rfl⟩, rfl⟩
    | tagged tag value => exact absurd rfl (hnot tag value)
    | _ => cases hes

theorem withEntries?_eq_some_of_noTag {change : Entries → Option Entries} {root root' : Value}
    (hroot : root.NoTag) (h : withEntries? change root = some root') :
    ∃ entries changed, root = .map entries ∧ change entries = some changed ∧
      root' = .map changed := by
  cases root with
  | map entries =>
    obtain ⟨changed, hchange, rfl⟩ := Option.map_eq_some_iff.1 h
    exact ⟨entries, changed, rfl, hchange, rfl⟩
  | tagged tag value => exact hroot.elim
  | _ => cases h

/-- Assigning a scalar at a path merges the mappings of the path. -/
theorem assignAt?_eq_merge {value root root' : Value} {path : List String}
    (hvalue : value.IsScalar) (hroot : root.Everywhere NoTag)
    (h : assignAt? value path root = some root') : root' = merge root (nest path value) := by
  induction path generalizing root root' with
  | nil => cases h
  | cons key rest ih =>
    cases rest with
    | nil =>
      obtain ⟨entries, changed, rfl, hchange, rfl⟩ := withEntries?_eq_some_of_noTag hroot.here h
      obtain rfl := Option.some.inj hchange
      rw [assign_eq_mergeEntry hvalue]
      exact (merge_map_singleton ..).symm
    | cons next rest =>
      obtain ⟨entries, changed, rfl, hchange, rfl⟩ := withEntries?_eq_some_of_noTag hroot.here h
      obtain ⟨child, hassign, rfl⟩ := Option.map_eq_some_iff.1 hchange
      rw [ih (hroot.find?_getD trivial (.text key)) hassign]
      change _ = merge (.map entries) (.map [(.text key, nest (next :: rest) value)])
      rw [merge_map_singleton]
      exact congrArg Value.map (mergeEntry_singleton ..).symm

theorem applyOverride_eq_ok_iff {root root' : Value} {expression : String} :
    applyOverride root expression = .ok root' ↔
      ∃ path raw, splitAssignment? expression = some (path, raw) ∧
        (pathKeys path).any String.isEmpty = false ∧
        assignAt? (scalarOf raw) (pathKeys path) root = some root' := by
  unfold applyOverride
  cases splitAssignment? expression with
  | none => simp
  | some assignment =>
    obtain ⟨path, raw⟩ := assignment
    dsimp only
    constructor
    · intro h
      refine ⟨path, raw, rfl, ?_⟩
      split at h
      · cases h
      · next hempty =>
        cases hassign : assignAt? (scalarOf raw) (pathKeys path) root with
        | none =>
          rw [hassign] at h
          cases h
        | some merged =>
          rw [hassign] at h
          exact ⟨Bool.eq_false_iff.2 hempty, congrArg some (Except.ok.inj h)⟩
    · intro h
      obtain ⟨path', raw', hsplit, hempty, hassign⟩ := h
      obtain ⟨rfl, rfl⟩ := Prod.mk.inj (Option.some.inj hsplit)
      rw [hempty, hassign]
      rfl

/-- An accepted override merges its layer. -/
theorem applyOverride_eq_merge {root root' : Value} {expression : String}
    (hroot : root.Everywhere NoTag) (h : applyOverride root expression = .ok root') :
    ∃ layer, overrideLayer? expression = some layer ∧ root' = merge root layer ∧
      (∃ entries, layer = .map entries) ∧ layer.WellFormed ∧ layer.Everywhere NoTag := by
  obtain ⟨path, raw, hsplit, -, hassign⟩ := applyOverride_eq_ok_iff.1 h
  have hscalar := scalarOf_isScalar raw
  refine ⟨nest (pathKeys path) (scalarOf raw), ?_, ?_, ?_, ?_, ?_⟩
  · unfold overrideLayer?
    rw [hsplit]
    rfl
  · exact assignAt?_eq_merge hscalar hroot hassign
  · cases hkeys : pathKeys path with
    | nil => exact absurd hkeys (pathKeys_ne_nil path)
    | cons key rest => exact ⟨_, rfl⟩
  · exact wellFormed_nest (wellFormed_of_isScalar hscalar) _
  · exact noTag_nest (everywhere_of_isScalar hscalar (noTag_of_isScalar hscalar)) _

end ServerManifests.Values
