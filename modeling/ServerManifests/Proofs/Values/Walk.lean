import ServerManifests.Proofs.Values.Reset
import ServerManifests.Proofs.Values.Atomicity
import ServerManifests.Proofs.Yaml.Similar

/-!
An override as a walk of single steps. A step changes what one key of a mapping has,
from what the key had and from the rest of the path, and leaves the other keys alone;
so two trees after some steps are compared key by key.
-/
namespace ServerManifests.Values

open Yaml Value

/-- What an expression assigns, and where. -/
def assignment (expression : String) : Except OverrideError (Value × List String) :=
  match splitAssignment? expression with
  | none => .error .noAssignment
  | some (path, raw) =>
    if (pathKeys path).any String.isEmpty then .error .emptyKey
    else .ok (scalarOf raw, pathKeys path)

/-- The keys along which an expression assigns. -/
def segments? (expression : String) : Option (List String) :=
  (splitAssignment? expression).map fun (path, _) => pathKeys path

theorem assignment_eq_ok {expression : String} {value : Value} {path : List String}
    (h : assignment expression = .ok (value, path)) :
    value.IsScalar ∧ path ≠ [] ∧ segments? expression = some path := by
  unfold assignment at h
  unfold segments?
  split at h
  · cases h
  · next path raw hsplit =>
    split at h
    · cases h
    · obtain ⟨rfl, rfl⟩ := Prod.mk.inj (Except.ok.inj h)
      rw [hsplit]
      exact ⟨scalarOf_isScalar raw, pathKeys_ne_nil path, rfl⟩

theorem overrideInPlace_of_error {root : Value} {expression : String} {error : OverrideError}
    (h : assignment expression = .error error) :
    overrideInPlace root expression = (root, .error error) := by
  unfold assignment at h
  unfold overrideInPlace
  generalize splitAssignment? expression = parts? at h ⊢
  cases parts? with
  | none =>
    obtain rfl := Except.error.inj h
    rfl
  | some parts =>
    dsimp only at h ⊢
    split at h
    · next hempty =>
      obtain rfl := Except.error.inj h
      exact if_pos hempty
    · cases h

theorem overrideInPlace_of_ok {root value : Value} {expression : String} {path : List String}
    (hroot : root.WellFormed) (h : assignment expression = .ok (value, path)) :
    overrideInPlace root expression =
      match assignAt? value path root with
      | none => (root, .error .crossesValue)
      | some root' => (root', .ok ()) := by
  unfold assignment at h
  unfold overrideInPlace
  generalize splitAssignment? expression = parts? at h ⊢
  cases parts? with
  | none => cases h
  | some parts =>
    dsimp only at h ⊢
    split at h
    · cases h
    · next hempty =>
      obtain ⟨rfl, rfl⟩ := Prod.mk.inj (Except.ok.inj h)
      rw [if_neg hempty, assignInPlace_eq hroot]
      cases assignAt? _ _ root <;> rfl

/-- Where a step along a key leads: to the value at the end of the path, or to the rest
of the path in what the key has. -/
def stepInto? (value : Value) : (rest : List String) → Option Value → Option (Option Value)
  | [], present => some (combined present (some value))
  | key :: rest, present => (assignAt? value (key :: rest) (present.getD (.map []))).map some

/-- What the walk does to the entries of a mapping. -/
def stepEntries? (value : Value) (key : String) : (rest : List String) → Entries → Option Entries
  | [], es => some (es.assign (.text key) value)
  | next :: rest, es =>
    (assignAt? value (next :: rest) ((es.find? (.text key)).getD (.map []))).map
      (es.insert (.text key) ·)

theorem assignAt?_eq_withEntries? (value : Value) (key : String) (rest : List String)
    (root : Value) :
    assignAt? value (key :: rest) root = withEntries? (stepEntries? value key rest) root := by
  cases rest <;> rfl

theorem find?_insert (es : Entries) (key value key' : Value) :
    (es.insert key value).find? key' =
      if key.agrees key' then some value else es.find? key' := by
  by_cases hkey : key.agrees key'
  · rw [if_pos hkey, ← Entries.find?_congr hkey]
    exact find?_insert_self es key value
  · rw [if_neg hkey]
    unfold Entries.insert
    cases hfind : es.find? key with
    | none =>
      dsimp only
      rw [Entries.find?_append, Entries.find?_cons, if_neg hkey]
      exact Option.or_none
    | some present =>
      dsimp only
      simp only [Entries.find?_replace, hkey, Bool.false_eq_true, if_false, Option.map_id']

/-- A step decides its own key and no other. -/
theorem find?_stepEntries? {value : Value} {key : String} {rest : List String} {es es' : Entries}
    (hvalue : value.IsScalar) (hes : es.Distinct) (h : stepEntries? value key rest es = some es') :
    ∃ after, stepInto? value rest (es.find? (.text key)) = some after ∧
      ∀ other, es'.find? other =
        if (Value.text key).agrees other then after else es.find? other := by
  cases rest with
  | nil =>
    obtain rfl := Option.some.inj h
    refine ⟨_, rfl, fun other => ?_⟩
    rw [assign_eq_mergeEntry hvalue, find?_mergeEntry hes]
  | cons next rest =>
    obtain ⟨child, hchild, rfl⟩ := Option.map_eq_some_iff.1 h
    exact ⟨some child, Option.map_eq_some_iff.2 ⟨child, hchild, rfl⟩, find?_insert es _ child⟩

/-- A mapping blocks a path where the path is blocked in what the first key has. -/
theorem blocked_cons_iff_of_map {key : String} {rest : List String} {root : Value} {es : Entries}
    (hes : root.untagged = .map es) :
    Blocked (key :: rest) root ↔ Blocked rest ((es.find? (.text key)).getD (.map [])) := by
  rw [blocked_cons_iff, or_iff_right fun h => h es hes]
  simp only [hes, Value.map.injEq, exists_and_left, exists_eq_left']
  cases es.find? (.text key) with
  | none => simp [not_blocked_new]
  | some child => simp

theorem distinct_stepEntries? {value : Value} {key : String} {rest : List String}
    {es es' : Entries} (hvalue : value.IsScalar) (hes : (Value.map es).WellFormed)
    (h : stepEntries? value key rest es = some es') : es'.Distinct := by
  have hassign : assignAt? value (key :: rest) (.map es) = some (.map es') := by
    rw [assignAt?_eq_withEntries?, withEntries?, h]
    rfl
  exact (wellFormed_assignAt? hvalue hes hassign).here

theorem withEntries?_bind (first second : Entries → Option Entries) (root : Value) :
    (withEntries? first root).bind (withEntries? second) =
      withEntries? (fun es => (first es).bind second) root := by
  induction root using Value.untagged.induct with
  | case1 tag value ih =>
    rw [withEntries?, withEntries?, ← ih]
    cases withEntries? first value <;> rfl
  | case2 value hnot =>
    cases value with
    | map es =>
      rw [withEntries?, withEntries?]
      cases first es <;> rfl
    | tagged tag value => exact absurd rfl (hnot tag value)
    | _ => rfl

/-- Similar trees stay similar if their entries do. -/
theorem similar_withEntries? {change change' : Entries → Option Entries}
    {root root' changed changed' : Value} (hsimilar : root.Similar root')
    (h : withEntries? change root = some changed)
    (h' : withEntries? change' root' = some changed')
    (hentries : ∀ es es' made made', root.untagged = .map es → root'.untagged = .map es' →
      change es = some made → change' es' = some made' →
      (Value.map made).Similar (.map made')) :
    changed.Similar changed' := by
  induction hsimilar generalizing changed changed' with
  | @scalar value hscalar =>
    cases value with
    | map es => exact hscalar.elim
    | tagged tag content => exact hscalar.elim
    | _ => cases h
  | list length each => cases h
  | @map es es' keys each ih =>
    obtain ⟨made, hmade, rfl⟩ := Option.map_eq_some_iff.1 h
    obtain ⟨made', hmade', rfl⟩ := Option.map_eq_some_iff.1 h'
    exact hentries es es' made made' rfl rfl hmade hmade'
  | tagged content ih =>
    obtain ⟨content, hcontent, rfl⟩ := Option.map_eq_some_iff.1 h
    obtain ⟨content', hcontent', rfl⟩ := Option.map_eq_some_iff.1 h'
    exact .tagged (ih hcontent hcontent' hentries)

end ServerManifests.Values
