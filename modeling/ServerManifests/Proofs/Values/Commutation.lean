import ServerManifests.Proofs.Values.Walk

/-!
Overrides in either order. Two paths of which none begins with the other part at some
key, and from there on a step along one leaves what the other comes upon. Up to that
key both meet the same mappings, whether these are there, are made by the first of the
two or are made by the second; a null that drops an entry moves entries, but no key
has another value for it.
-/
namespace ServerManifests.Values

open Yaml Value

/-- None of two paths begins with the other. -/
def Apart (path path' : List String) : Prop := ¬ path <+: path' ∧ ¬ path' <+: path

instance (path path' : List String) : Decidable (Apart path path') :=
  inferInstanceAs (Decidable (_ ∧ _))

/-- The paths of two expressions are apart, if both have one. -/
def Independent (expression expression' : String) : Prop :=
  ∀ path path', segments? expression = some path → segments? expression' = some path' →
    Apart path path'

theorem Apart.symm {path path' : List String} (h : Apart path path') : Apart path' path :=
  ⟨h.2, h.1⟩

theorem Apart.ne_nil {path path' : List String} (h : Apart path path') :
    path ≠ [] ∧ path' ≠ [] := by
  constructor
  · rintro rfl
    exact h.1 List.nil_prefix
  · rintro rfl
    exact h.2 List.nil_prefix

theorem Apart.tail {key : String} {rest rest' : List String}
    (h : Apart (key :: rest) (key :: rest')) : Apart rest rest' := by
  constructor
  · exact fun hprefix => h.1 (List.prefix_cons_inj key |>.2 hprefix)
  · exact fun hprefix => h.2 (List.prefix_cons_inj key |>.2 hprefix)

variable {value value' root root' : Value} {path path' : List String}

theorem text_agrees_text_iff {s t : String} : (Value.text s).agrees (.text t) = true ↔ s = t := by
  rw [agrees_text_iff]
  exact ⟨Value.text.inj, congrArg Value.text⟩

/-- An override blocks no path apart from its own, and opens none. -/
theorem blocked_assignAt?_iff (hvalue : value'.IsScalar) (hroot : root.WellFormed)
    (hapart : Apart path path') (h : assignAt? value' path' root = some root') :
    Blocked path root' ↔ Blocked path root := by
  induction path generalizing path' root root' with
  | nil => exact absurd rfl hapart.ne_nil.1
  | cons key rest ih =>
    cases path' with
    | nil => exact absurd rfl hapart.ne_nil.2
    | cons key' rest' =>
      rw [assignAt?_eq_withEntries?] at h
      obtain ⟨es, es', hes, hstep, hes'⟩ := withEntries?_eq_some h
      have hwell : (Value.map es).WellFormed := hes ▸ Everywhere.untagged hroot
      obtain ⟨after, hafter, hfind⟩ := find?_stepEntries? hvalue hwell.here hstep
      rw [blocked_cons_iff_of_map hes, blocked_cons_iff_of_map hes', hfind]
      by_cases hkey : key' = key
      · -- The paths part further below, in what the first override left at the key.
        subst hkey
        rw [if_pos (agrees_self _)]
        obtain ⟨next, rest', rfl⟩ := List.exists_cons_of_ne_nil hapart.tail.ne_nil.2
        obtain ⟨child', hchild', rfl⟩ := Option.map_eq_some_iff.1 hafter
        have hchild := Everywhere.find?_getD hwell List.Pairwise.nil (.text key')
        exact ih hchild hapart.tail hchild'
      · rw [if_neg (mt text_agrees_text_iff.1 hkey)]

/-- What two steps leave at each key. At one key the second comes upon what the first has
left, and at different keys upon what was there. -/
theorem find?_two_steps {key key' : String} {rest rest' : List String} {es made : Entries}
    (hvalue : value.IsScalar) (hvalue' : value'.IsScalar) (hwell : (Value.map es).WellFormed)
    (h : (stepEntries? value key rest es).bind (stepEntries? value' key' rest') = some made) :
    ∃ after both, stepInto? value rest (es.find? (.text key)) = some after ∧
      stepInto? value' rest' (if key = key' then after else es.find? (.text key')) = some both ∧
      ∀ other, made.find? other =
        if (Value.text key').agrees other then both
        else if (Value.text key).agrees other then after else es.find? other := by
  obtain ⟨between, hbetween, hmade⟩ := Option.bind_eq_some_iff.1 h
  obtain ⟨after, hafter, hfind⟩ := find?_stepEntries? hvalue hwell.here hbetween
  obtain ⟨both, hboth, hfind'⟩ :=
    find?_stepEntries? hvalue' (distinct_stepEntries? hvalue hwell hbetween) hmade
  simp only [hfind, text_agrees_text_iff] at hboth hfind'
  exact ⟨after, both, hafter, hboth, hfind'⟩

/-- Two overrides that can be made in either order make similar trees. -/
theorem similar_of_assignAt?_bind (hvalue : value.IsScalar) (hvalue' : value'.IsScalar)
    (hroot : root.WellFormed) (hapart : Apart path path') {first second : Value}
    (hfirst : (assignAt? value path root).bind (assignAt? value' path') = some first)
    (hsecond : (assignAt? value' path' root).bind (assignAt? value path) = some second) :
    first.Similar second := by
  induction path generalizing path' root first second with
  | nil => exact absurd rfl hapart.ne_nil.1
  | cons key rest ih =>
    cases path' with
    | nil => exact absurd rfl hapart.ne_nil.2
    | cons key' rest' =>
      have hstep : assignAt? value (key :: rest) = withEntries? (stepEntries? value key rest) :=
        funext (assignAt?_eq_withEntries? value key rest)
      have hstep' : assignAt? value' (key' :: rest') =
          withEntries? (stepEntries? value' key' rest') :=
        funext (assignAt?_eq_withEntries? value' key' rest')
      rw [hstep, hstep', withEntries?_bind] at hfirst hsecond
      refine similar_withEntries? (.refl root) hfirst hsecond ?_
      intro es _ made made' hes hes' hmade hmade'
      obtain rfl := Value.map.inj (hes.symm.trans hes')
      have hwell : (Value.map es).WellFormed := hes ▸ Everywhere.untagged hroot
      obtain ⟨after, both, hafter, hboth, hfind⟩ := find?_two_steps hvalue hvalue' hwell hmade
      obtain ⟨after', both', hafter', hboth', hfind'⟩ :=
        find?_two_steps hvalue' hvalue hwell hmade'
      refine similar_map_iff.2 fun other => ?_
      rw [hfind, hfind']
      by_cases hkey : key = key'
      · subst hkey
        rw [if_pos rfl] at hboth hboth'
        by_cases hother : (Value.text key).agrees other
        · rw [if_pos hother, if_pos hother]
          obtain ⟨next, rest, rfl⟩ := List.exists_cons_of_ne_nil hapart.tail.ne_nil.1
          obtain ⟨next', rest', rfl⟩ := List.exists_cons_of_ne_nil hapart.tail.ne_nil.2
          obtain ⟨child₁, hchild₁, rfl⟩ := Option.map_eq_some_iff.1 hafter
          obtain ⟨child₂, hchild₂, rfl⟩ := Option.map_eq_some_iff.1 hafter'
          obtain ⟨child, hchild, rfl⟩ := Option.map_eq_some_iff.1 hboth
          obtain ⟨child', hchild', rfl⟩ := Option.map_eq_some_iff.1 hboth'
          have hpresent := Everywhere.find?_getD hwell List.Pairwise.nil (.text key)
          exact .some (ih hpresent hapart.tail (Option.bind_eq_some_iff.2 ⟨_, hchild₁, hchild⟩)
            (Option.bind_eq_some_iff.2 ⟨_, hchild₂, hchild'⟩))
        · simp only [if_neg hother]
          exact Value.Similar.option_refl _
      · -- Neither step sees the other, so each does what it does in the tree at the start.
        rw [if_neg hkey, hafter'] at hboth
        rw [if_neg (Ne.symm hkey), hafter] at hboth'
        obtain rfl := Option.some.inj hboth
        obtain rfl := Option.some.inj hboth'
        by_cases hother : (Value.text key).agrees other
        · have hother' : ¬(Value.text key').agrees other := by
            rw [← agrees_congr hother]
            exact mt text_agrees_text_iff.1 (Ne.symm hkey)
          rw [if_neg hother', if_pos hother, if_pos hother]
          exact Value.Similar.option_refl _
        · rw [if_neg hother, if_neg hother]
          exact Value.Similar.option_refl _

/-- Two overrides one after the other: the tree that is left, and how each of them ended. -/
def overrideBoth (root : Value) (expression expression' : String) :
    Value × Except OverrideError Unit × Except OverrideError Unit :=
  let (between, outcome) := overrideInPlace root expression
  let (left, outcome') := overrideInPlace between expression'
  (left, outcome, outcome')

theorem wellFormed_overrideInPlace (hroot : root.WellFormed) (expression : String) :
    (overrideInPlace root expression).1.WellFormed := by
  cases hassignment : assignment expression with
  | error error =>
    rw [overrideInPlace_of_error hassignment]
    exact hroot
  | ok assigned =>
    rw [overrideInPlace_of_ok hroot hassignment]
    cases hassign : assignAt? assigned.1 assigned.2 root with
    | none => exact hroot
    | some root' => exact wellFormed_assignAt? (assignment_eq_ok hassignment).1 hroot hassign

/-- An expression that assigns nothing fails before another one as it does after it. -/
theorem overrideBoth_of_error (root : Value) {expression : String} (expression' : String)
    {error : OverrideError} (h : assignment expression = .error error) :
    overrideBoth root expression expression' =
        ((overrideInPlace root expression').1, .error error, (overrideInPlace root expression').2) ∧
      overrideBoth root expression' expression =
        ((overrideInPlace root expression').1, (overrideInPlace root expression').2,
          .error error) := by
  unfold overrideBoth
  constructor
  · rw [overrideInPlace_of_error h]
  · dsimp only
    rw [overrideInPlace_of_error h]

theorem assignAt?_eq_none_of_apart (value : Value) (hvalue' : value'.IsScalar)
    (hroot : root.WellFormed) (hapart : Apart path path')
    (h : assignAt? value' path' root = some root') :
    assignAt? value path root' = none ↔ assignAt? value path root = none := by
  rw [assignAt?_eq_none_iff hapart.ne_nil.1, assignAt?_eq_none_iff hapart.ne_nil.1,
    blocked_assignAt?_iff hvalue' hroot hapart h]

/-- Two assignments on paths apart are two that can be made, one that can or none, in
either order. -/
theorem overrideBoth_of_ok {expression expression' : String} (hroot : root.WellFormed)
    (h : assignment expression = .ok (value, path))
    (h' : assignment expression' = .ok (value', path')) (hapart : Apart path path') :
    ∃ left left' outcome outcome',
      overrideBoth root expression expression' = (left, outcome, outcome') ∧
      overrideBoth root expression' expression = (left', outcome', outcome) ∧
      left.Similar left' := by
  obtain ⟨hvalue, -, -⟩ := assignment_eq_ok h
  obtain ⟨hvalue', -, -⟩ := assignment_eq_ok h'
  unfold overrideBoth
  rw [overrideInPlace_of_ok hroot h, overrideInPlace_of_ok hroot h']
  cases hfirst : assignAt? value path root with
  | none =>
    cases hfirst' : assignAt? value' path' root with
    | none =>
      dsimp only
      rw [overrideInPlace_of_ok hroot h, overrideInPlace_of_ok hroot h', hfirst, hfirst']
      exact ⟨root, root, _, _, rfl, rfl, .refl root⟩
    | some root' =>
      have hwell := wellFormed_assignAt? hvalue' hroot hfirst'
      dsimp only
      rw [overrideInPlace_of_ok hwell h, overrideInPlace_of_ok hroot h', hfirst',
        (assignAt?_eq_none_of_apart value hvalue' hroot hapart hfirst').2 hfirst]
      exact ⟨root', root', _, _, rfl, rfl, .refl root'⟩
  | some root' =>
    have hwell := wellFormed_assignAt? hvalue hroot hfirst
    have hsame := assignAt?_eq_none_of_apart value' hvalue hroot hapart.symm hfirst
    cases hfirst' : assignAt? value' path' root with
    | none =>
      dsimp only
      rw [overrideInPlace_of_ok hwell h', overrideInPlace_of_ok hroot h, hfirst,
        hsame.2 hfirst']
      exact ⟨root', root', _, _, rfl, rfl, .refl root'⟩
    | some root'' =>
      have hwell' := wellFormed_assignAt? hvalue' hroot hfirst'
      have hsame' := assignAt?_eq_none_of_apart value hvalue' hroot hapart hfirst'
      obtain ⟨left, hleft⟩ := Option.ne_none_iff_exists'.1 (mt hsame.1 (by simp [hfirst']))
      obtain ⟨left', hleft'⟩ := Option.ne_none_iff_exists'.1 (mt hsame'.1 (by simp [hfirst]))
      dsimp only
      rw [overrideInPlace_of_ok hwell h', overrideInPlace_of_ok hwell' h, hleft, hleft']
      refine ⟨left, left', _, _, rfl, rfl, ?_⟩
      exact similar_of_assignAt?_bind hvalue hvalue' hroot hapart
        (Option.bind_eq_some_iff.2 ⟨_, hfirst, hleft⟩)
        (Option.bind_eq_some_iff.2 ⟨_, hfirst', hleft'⟩)

/-- Overrides on independent paths end alike in either order: each of them succeeds or
has the same failure, and the trees that are left are equal as values, as they differ
in the order of entries at most. -/
theorem independent_overrides_commute (root : Value) (expression expression' : String)
    (hroot : root.WellFormed) (hindependent : Independent expression expression') :
    let (left, outcome, outcome') := overrideBoth root expression expression'
    let (left', swapped', swapped) := overrideBoth root expression' expression
    outcome = swapped ∧ outcome' = swapped' ∧ left.Similar left' ∧ left.agrees left' = true := by
  have hwell : ∀ expression expression', (overrideBoth root expression expression').1.WellFormed :=
    fun _ _ => wellFormed_overrideInPlace (wellFormed_overrideInPlace hroot _) _
  have hboth : ∃ left left' outcome outcome',
      overrideBoth root expression expression' = (left, outcome, outcome') ∧
      overrideBoth root expression' expression = (left', outcome', outcome) ∧
      left.Similar left' := by
    cases h : assignment expression with
    | error error =>
      obtain ⟨hfirst, hsecond⟩ := overrideBoth_of_error root expression' h
      exact ⟨_, _, _, _, hfirst, hsecond, .refl _⟩
    | ok assigned =>
      cases h' : assignment expression' with
      | error error =>
        obtain ⟨hfirst, hsecond⟩ := overrideBoth_of_error root expression h'
        exact ⟨_, _, _, _, hsecond, hfirst, .refl _⟩
      | ok assigned' =>
        obtain ⟨-, -, hpath⟩ := assignment_eq_ok h
        obtain ⟨-, -, hpath'⟩ := assignment_eq_ok h'
        exact overrideBoth_of_ok hroot h h' (hindependent _ _ hpath hpath')
  obtain ⟨left, left', outcome, outcome', hfirst, hsecond, hsimilar⟩ := hboth
  have hleft := hwell expression expression'
  have hleft' := hwell expression' expression
  rw [hfirst] at hleft ⊢
  rw [hsecond] at hleft' ⊢
  exact ⟨rfl, rfl, hsimilar, hsimilar.agrees hleft hleft'⟩

/-- A null drops the first entry of a mapping, to which the other override adds one at
its end; of the two that are left another one comes first in each order. -/
theorem independent_overrides_commute_of_null :
    let root : Value := .map [(.text "a", .map [(.text "b", .int 1), (.text "c", .int 2)])]
    let left : Value := .map [(.text "a", .map [(.text "c", .int 2),
      (.text "d", .map [(.text "e", .text "")])])]
    let left' : Value := .map [(.text "a", .map [(.text "d", .map [(.text "e", .text "")]),
      (.text "c", .int 2)])]
    root.WellFormed ∧ Independent "a.b=null" "a.d.e=" ∧
      overrideBoth root "a.b=null" "a.d.e=" = (left, .ok (), .ok ()) ∧
      overrideBoth root "a.d.e=" "a.b=null" = (left', .ok (), .ok ()) ∧ left.Similar left' := by
  intro root left left'
  have hroot : root.WellFormed := by decide
  have hsplit : splitAssignment? "a.b=null" = some ("a.b", "null") := by decide +kernel
  have hsplit' : splitAssignment? "a.d.e=" = some ("a.d.e", "") := by decide +kernel
  have hkeys : pathKeys "a.b" = ["a", "b"] := by decide +kernel
  have hkeys' : pathKeys "a.d.e" = ["a", "d", "e"] := by decide +kernel
  have hassignment : assignment "a.b=null" = .ok (.null, ["a", "b"]) := by
    rw [assignment, hsplit]
    dsimp only
    rw [hkeys, scalarOf_null]
    exact if_neg (by decide)
  have hassignment' : assignment "a.d.e=" = .ok (.text "", ["a", "d", "e"]) := by
    have hscalar : scalarOf "" = .text "" := if_pos (by decide)
    rw [assignment, hsplit']
    dsimp only
    rw [hkeys', hscalar]
    exact if_neg (by decide)
  have hindependent : Independent "a.b=null" "a.d.e=" := by
    intro path path' hpath hpath'
    rw [(assignment_eq_ok hassignment).2.2] at hpath
    rw [(assignment_eq_ok hassignment').2.2] at hpath'
    obtain rfl := Option.some.inj hpath
    obtain rfl := Option.some.inj hpath'
    decide
  have hfirst : overrideBoth root "a.b=null" "a.d.e=" = (left, .ok (), .ok ()) := by
    have hdropped : assignAt? .null ["a", "b"] root =
        some (.map [(.text "a", .map [(.text "c", .int 2)])]) := by rfl
    have hleft : assignAt? (.text "") ["a", "d", "e"]
        (.map [(.text "a", .map [(.text "c", .int 2)])]) = some left := by rfl
    unfold overrideBoth
    rw [overrideInPlace_of_ok hroot hassignment, hdropped]
    dsimp only
    rw [overrideInPlace_of_ok (by decide) hassignment', hleft]
  have hsecond : overrideBoth root "a.d.e=" "a.b=null" = (left', .ok (), .ok ()) := by
    have hadded : assignAt? (.text "") ["a", "d", "e"] root =
        some (.map [(.text "a", .map [(.text "b", .int 1), (.text "c", .int 2),
          (.text "d", .map [(.text "e", .text "")])])]) := by rfl
    have hleft' : assignAt? .null ["a", "b"]
        (.map [(.text "a", .map [(.text "b", .int 1), (.text "c", .int 2),
          (.text "d", .map [(.text "e", .text "")])])]) = some left' := by rfl
    unfold overrideBoth
    rw [overrideInPlace_of_ok hroot hassignment', hadded]
    dsimp only
    rw [overrideInPlace_of_ok (by decide) hassignment, hleft']
  -- The runs are known by now, and nothing is to be computed from the trees again.
  clear_value root left left'
  have hcommute := independent_overrides_commute root "a.b=null" "a.d.e=" hroot hindependent
  rw [hfirst, hsecond] at hcommute
  exact ⟨hroot, hindependent, hfirst, hsecond, hcommute.2.2.1⟩

end ServerManifests.Values
