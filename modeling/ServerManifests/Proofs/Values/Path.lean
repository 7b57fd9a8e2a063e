import Mathlib.Logic.Function.Basic
import ServerManifests.Values.Override

/-!
Paths as spellings of lists of keys. A dot separates unless a backslash stands right
before it, so a key can have dots, each behind a backslash of its own, and every list
of keys has a path but for one thing: a key that ends with a backslash would take in
the dot behind it, so only the last key may. Every path is the path of its keys.
-/
namespace ServerManifests.Values

/-- Only the last of some keys, of which there is one, may end with a backslash. -/
structure Spellable (keys : List (List Char)) : Prop where
  ne_nil : keys ≠ []
  ending : ∀ key ∈ keys.dropLast, key.getLast? ≠ some '\\'

/-- The path that spells keys. -/
def pathOf (keys : List String) : String := String.ofList (joinPath (keys.map String.toList))

theorem getLast?_ne_of_cons {α : Type} {c x : α} {rest : List α}
    (h : (c :: rest).getLast? ≠ some x) : rest.getLast? ≠ some x := by
  intro hlast
  simp [List.getLast?_cons, hlast] at h

theorem prepend_append (c : Char) {keys : List (List Char)} (h : keys ≠ [])
    (more : List (List Char)) : prepend c (keys ++ more) = prepend c keys ++ more := by
  obtain ⟨key, rest, rfl⟩ := List.exists_cons_of_ne_nil h
  rfl

theorem splitPath_dot (rest : List Char) : splitPath ('.' :: rest) = [] :: splitPath rest := by
  rw [splitPath]

theorem splitPath_escaped (rest : List Char) :
    splitPath ('\\' :: '.' :: rest) = prepend '.' (splitPath rest) := by
  rw [splitPath]

/-- A character that is no dot belongs to the first key, and so does a backslash if no
dot comes after it. -/
theorem splitPath_cons {c : Char} {rest : List Char} (hdot : c ≠ '.')
    (hescape : c = '\\' → rest.head? ≠ some '.') :
    splitPath (c :: rest) = prepend c (splitPath rest) := by
  rw [splitPath]
  · rintro tail rfl rfl
    exact hescape rfl rfl
  · exact hdot

/-- A path is empty, or starts with a dot in a key, a dot between keys or a character
that is neither a dot nor the backslash of one. -/
theorem path_induction {motive : List Char → Prop} (nil : motive [])
    (escaped : ∀ rest, motive rest → motive ('\\' :: '.' :: rest))
    (dot : ∀ rest, motive rest → motive ('.' :: rest))
    (other : ∀ c rest, c ≠ '.' → (c = '\\' → rest.head? ≠ some '.') → motive rest →
      motive (c :: rest)) (path : List Char) : motive path := by
  induction path using splitPath.induct with
  | case1 => exact nil
  | case2 rest ih => exact escaped rest ih
  | case3 rest ih => exact dot rest ih
  | case4 c rest hescaped hdot ih =>
    refine other c rest hdot ?_ ih
    rintro rfl hhead
    obtain ⟨tail, rfl⟩ := List.head?_eq_some_iff.1 hhead
    exact hescaped tail rfl rfl

/-- A dot separates if no backslash stands right before it. -/
theorem splitPath_append_dot {before : List Char} (h : before.getLast? ≠ some '\\')
    (after : List Char) :
    splitPath (before ++ '.' :: after) = splitPath before ++ splitPath after := by
  induction before using path_induction with
  | nil => exact splitPath_dot after
  | escaped rest ih =>
    change splitPath ('\\' :: '.' :: (rest ++ '.' :: after)) = _
    rw [splitPath_escaped, splitPath_escaped, ih (getLast?_ne_of_cons (getLast?_ne_of_cons h)),
      prepend_append _ (splitPath_ne_nil rest)]
  | dot rest ih =>
    change splitPath ('.' :: (rest ++ '.' :: after)) = _
    rw [splitPath_dot, splitPath_dot, ih (getLast?_ne_of_cons h)]
    rfl
  | other c rest hdot hescape ih =>
    have hescape' : c = '\\' → (rest ++ '.' :: after).head? ≠ some '.' := by
      rintro rfl
      cases rest with
      | nil => exact absurd rfl h
      | cons next rest => exact hescape rfl
    change splitPath (c :: (rest ++ '.' :: after)) = _
    rw [splitPath_cons hdot hescape', splitPath_cons hdot hescape, ih (getLast?_ne_of_cons h),
      prepend_append _ (splitPath_ne_nil rest)]

/-- A character put in front of the first key leaves how the last key goes on. -/
private theorem exists_prepend (c : Char) (init : List (List Char)) (last : List Char) :
    ∃ init' last', prepend c (init ++ [last]) = init' ++ [last'] ∧
      ∀ more rest,
        prepend c (init ++ (last ++ more) :: rest) = init' ++ (last' ++ more) :: rest := by
  cases init with
  | nil => exact ⟨[], c :: last, rfl, fun _ _ => rfl⟩
  | cons key init => exact ⟨(c :: key) :: init, last, rfl, fun _ _ => rfl⟩

/-- A dot right behind a backslash, whatever stands before the two, makes one key of
what is on its sides. -/
theorem splitPath_append_escaped (before after : List Char) :
    ∃ init last first rest, splitPath before = init ++ [last] ∧ splitPath after = first :: rest ∧
      splitPath (before ++ '\\' :: '.' :: after) = init ++ (last ++ '.' :: first) :: rest := by
  obtain ⟨first, rest, hafter⟩ := List.exists_cons_of_ne_nil (splitPath_ne_nil after)
  suffices h : ∃ init last, splitPath before = init ++ [last] ∧
      splitPath (before ++ '\\' :: '.' :: after) = init ++ (last ++ '.' :: first) :: rest by
    obtain ⟨init, last, hbefore, hwhole⟩ := h
    exact ⟨init, last, first, rest, hbefore, hafter, hwhole⟩
  induction before using path_induction with
  | nil =>
    refine ⟨[], [], by rw [splitPath]; rfl, ?_⟩
    change splitPath ('\\' :: '.' :: after) = _
    rw [splitPath_escaped, hafter]
    rfl
  | escaped tail ih =>
    obtain ⟨init, last, hbefore, hwhole⟩ := ih
    obtain ⟨init', last', hinit, hmore⟩ := exists_prepend '.' init last
    refine ⟨init', last', ?_, ?_⟩
    · rw [splitPath_escaped, hbefore, hinit]
    · change splitPath ('\\' :: '.' :: (tail ++ '\\' :: '.' :: after)) = _
      rw [splitPath_escaped, hwhole, hmore]
  | dot tail ih =>
    obtain ⟨init, last, hbefore, hwhole⟩ := ih
    refine ⟨[] :: init, last, ?_, ?_⟩
    · rw [splitPath_dot, hbefore]
      rfl
    · change splitPath ('.' :: (tail ++ '\\' :: '.' :: after)) = _
      rw [splitPath_dot, hwhole]
      rfl
  | other c tail hdot hescape ih =>
    obtain ⟨init, last, hbefore, hwhole⟩ := ih
    obtain ⟨init', last', hinit, hmore⟩ := exists_prepend c init last
    have hescape' : c = '\\' → (tail ++ '\\' :: '.' :: after).head? ≠ some '.' := by
      intro hc
      cases tail with
      | nil => simp
      | cons next tail => exact hescape hc
    refine ⟨init', last', ?_, ?_⟩
    · rw [splitPath_cons hdot hescape, hbefore, hinit]
    · change splitPath (c :: (tail ++ '\\' :: '.' :: after)) = _
      rw [splitPath_cons hdot hescape', hwhole, hmore]

/-- Without a dot a path is one key, with all its backslashes. -/
theorem splitPath_of_not_mem {path : List Char} (h : '.' ∉ path) : splitPath path = [path] := by
  induction path with
  | nil => rw [splitPath]
  | cons c rest ih =>
    have hc : c ≠ '.' := fun hdot => h (hdot ▸ List.mem_cons_self)
    have hrest : '.' ∉ rest := fun hdot => h (List.mem_cons_of_mem c hdot)
    rw [splitPath_cons hc fun _ hhead => hrest (List.mem_of_head? hhead), ih hrest]
    rfl

theorem escapeDots_cons {c : Char} (h : c ≠ '.') (rest : List Char) :
    escapeDots (c :: rest) = c :: escapeDots rest := by
  rw [escapeDots]
  exact h

theorem getLast?_escapeDots (key : List Char) : (escapeDots key).getLast? = key.getLast? := by
  induction key using escapeDots.induct with
  | case1 => rfl
  | case2 rest ih => simp [escapeDots, List.getLast?_cons, ih]
  | case3 c rest hdot ih =>
    have hc : c ≠ '.' := hdot
    simp [escapeDots_cons hc, List.getLast?_cons, ih]

theorem head?_escapeDots_ne (key : List Char) : (escapeDots key).head? ≠ some '.' := by
  cases key with
  | nil => simp [escapeDots]
  | cons c rest =>
    by_cases hc : c = '.'
    · subst hc
      simp [escapeDots]
    · simp [escapeDots_cons hc, hc]

/-- The dots of a key do not separate once they are escaped. -/
theorem splitPath_escapeDots (key : List Char) : splitPath (escapeDots key) = [key] := by
  induction key using escapeDots.induct with
  | case1 => rw [escapeDots, splitPath]
  | case2 rest ih =>
    rw [escapeDots, splitPath_escaped, ih]
    rfl
  | case3 c rest hdot ih =>
    have hc : c ≠ '.' := hdot
    rw [escapeDots_cons hc, splitPath_cons hc fun _ => head?_escapeDots_ne rest, ih]
    rfl

theorem joinPath_cons (key : List Char) {rest : List (List Char)} (h : rest ≠ []) :
    joinPath (key :: rest) = escapeDots key ++ '.' :: joinPath rest := by
  rw [joinPath]
  exact h

theorem joinPath_nil_cons {keys : List (List Char)} (h : keys ≠ []) :
    joinPath ([] :: keys) = '.' :: joinPath keys := by
  rw [joinPath_cons _ h]
  rfl

theorem joinPath_prepend (c : Char) {keys : List (List Char)} (h : keys ≠ []) :
    joinPath (prepend c keys) = escapeDots [c] ++ joinPath keys := by
  have hfirst : ∀ key, escapeDots (c :: key) = escapeDots [c] ++ escapeDots key := by
    intro key
    by_cases hc : c = '.'
    · subst hc
      rfl
    · rw [escapeDots_cons hc, escapeDots_cons hc]
      rfl
  obtain ⟨key, rest, rfl⟩ := List.exists_cons_of_ne_nil h
  change joinPath ((c :: key) :: rest) = _
  by_cases hrest : rest = []
  · subst hrest
    exact hfirst key
  · rw [joinPath_cons _ hrest, joinPath_cons _ hrest, hfirst, List.append_assoc]

theorem splitPath_joinPath {keys : List (List Char)} (h : Spellable keys) :
    splitPath (joinPath keys) = keys := by
  induction keys with
  | nil => exact absurd rfl h.ne_nil
  | cons key rest ih =>
    by_cases hrest : rest = []
    · subst hrest
      exact splitPath_escapeDots key
    · have hends : (escapeDots key).getLast? ≠ some '\\' := by
        rw [getLast?_escapeDots]
        exact h.ending key (by simp [List.dropLast_cons_of_ne_nil hrest])
      have hspellable : Spellable rest := by
        refine ⟨hrest, fun other hother => h.ending other ?_⟩
        rw [List.dropLast_cons_of_ne_nil hrest]
        exact List.mem_cons_of_mem _ hother
      rw [joinPath_cons key hrest, splitPath_append_dot hends, splitPath_escapeDots,
        ih hspellable]
      rfl

theorem joinPath_splitPath (path : List Char) : joinPath (splitPath path) = path := by
  induction path using path_induction with
  | nil => rw [splitPath, joinPath, escapeDots]
  | escaped rest ih =>
    rw [splitPath_escaped, joinPath_prepend _ (splitPath_ne_nil rest), ih]
    rfl
  | dot rest ih => rw [splitPath_dot, joinPath_nil_cons (splitPath_ne_nil rest), ih]
  | other c rest hdot hescape ih =>
    rw [splitPath_cons hdot hescape, joinPath_prepend _ (splitPath_ne_nil rest), ih,
      escapeDots_cons hdot]
    rfl

/-- Behind an empty first key stands the dot that ends it. -/
theorem head?_of_splitPath {path : List Char} {rest : List (List Char)}
    (h : splitPath path = [] :: rest) (hrest : rest ≠ []) : path.head? = some '.' := by
  have hprepend : ∀ c keys, prepend c keys ≠ [] :: rest := by
    intro c keys heq
    cases keys <;> cases heq
  induction path using path_induction with
  | nil =>
    rw [splitPath] at h
    exact absurd (List.cons.inj h).2.symm hrest
  | escaped tail ih =>
    rw [splitPath_escaped] at h
    exact absurd h (hprepend _ _)
  | dot tail ih => rfl
  | other c tail hdot hescape ih =>
    rw [splitPath_cons hdot hescape] at h
    exact absurd h (hprepend _ _)

theorem spellable_prepend {c : Char} {key : List Char} {rest : List (List Char)}
    (h : Spellable (key :: rest)) (hc : rest ≠ [] → key = [] → c ≠ '\\') :
    Spellable (prepend c (key :: rest)) := by
  refine ⟨List.cons_ne_nil _ _, ?_⟩
  intro other hother
  change other ∈ ((c :: key) :: rest).dropLast at hother
  by_cases hrest : rest = []
  · subst hrest
    cases hother
  · have hending := h.ending
    rw [List.dropLast_cons_of_ne_nil hrest] at hother hending
    rcases List.mem_cons.1 hother with rfl | hother
    · have hkey := hending key List.mem_cons_self
      cases key with
      | nil => simpa using hc hrest rfl
      | cons next key => simpa [List.getLast?_cons] using hkey
    · exact hending other (List.mem_cons_of_mem _ hother)

theorem spellable_splitPath (path : List Char) : Spellable (splitPath path) := by
  induction path using path_induction with
  | nil =>
    rw [splitPath]
    exact ⟨List.cons_ne_nil _ _, fun key hkey => nomatch hkey⟩
  | escaped rest ih =>
    obtain ⟨key, more, hkeys⟩ := List.exists_cons_of_ne_nil (splitPath_ne_nil rest)
    rw [splitPath_escaped, hkeys]
    exact spellable_prepend (hkeys ▸ ih) fun _ _ => by decide
  | dot rest ih =>
    rw [splitPath_dot]
    refine ⟨List.cons_ne_nil _ _, fun key hkey => ?_⟩
    rw [List.dropLast_cons_of_ne_nil (splitPath_ne_nil rest)] at hkey
    rcases List.mem_cons.1 hkey with rfl | hkey
    · simp
    · exact ih.ending key hkey
  | other c rest hdot hescape ih =>
    obtain ⟨key, more, hkeys⟩ := List.exists_cons_of_ne_nil (splitPath_ne_nil rest)
    rw [splitPath_cons hdot hescape, hkeys]
    refine spellable_prepend (hkeys ▸ ih) fun hmore hkey hc => ?_
    -- an empty key before another one ends with a dot, which the backslash would take in
    rw [hkey] at hkeys
    exact hescape hc (head?_of_splitPath hkeys hmore)

theorem pathKeys_append_dot {before : String} (h : before.toList.getLast? ≠ some '\\')
    (after : String) : pathKeys (before ++ "." ++ after) = pathKeys before ++ pathKeys after := by
  have hlist : (before ++ "." ++ after).toList = before.toList ++ '.' :: after.toList := by simp
  unfold pathKeys
  rw [hlist, splitPath_append_dot h, List.map_append]

theorem pathKeys_append_escaped (before after : String) :
    ∃ init last first rest, pathKeys before = init ++ [last] ∧ pathKeys after = first :: rest ∧
      pathKeys (before ++ "\\." ++ after) = init ++ (last ++ "." ++ first) :: rest := by
  obtain ⟨init, last, first, rest, hbefore, hafter, hwhole⟩ :=
    splitPath_append_escaped before.toList after.toList
  have hlist : (before ++ "\\." ++ after).toList =
      before.toList ++ '\\' :: '.' :: after.toList := by
    simp
  refine ⟨init.map String.ofList, .ofList last, .ofList first, rest.map String.ofList, ?_, ?_, ?_⟩
  · simp [pathKeys, hbefore]
  · simp [pathKeys, hafter]
  · unfold pathKeys
    rw [hlist, hwhole]
    simp [String.append_assoc]

theorem pathOf_pathKeys (path : String) : pathOf (pathKeys path) = path := by
  simp [pathOf, pathKeys, joinPath_splitPath]

theorem pathKeys_pathOf {keys : List String} (h : Spellable (keys.map String.toList)) :
    pathKeys (pathOf keys) = keys := by
  simp [pathOf, pathKeys, splitPath_joinPath h]

/-- Paths and the lists of keys that a path can spell are the same: the keys of their
path are the keys, and the path of its keys is the path. A dot separates exactly if
the character before it is not a backslash, and other backslashes belong to keys. -/
theorem paths_spell_keys :
    (∀ keys : List String, Spellable (keys.map String.toList) → pathKeys (pathOf keys) = keys) ∧
    (∀ path : String, Spellable ((pathKeys path).map String.toList) ∧
      pathOf (pathKeys path) = path) ∧
    Function.Injective pathKeys ∧
    (∀ before after : String, before.toList.getLast? ≠ some '\\' →
      pathKeys (before ++ "." ++ after) = pathKeys before ++ pathKeys after) ∧
    (∀ before after : String, ∃ init last first rest, pathKeys before = init ++ [last] ∧
      pathKeys after = first :: rest ∧
      pathKeys (before ++ "\\." ++ after) = init ++ (last ++ "." ++ first) :: rest) ∧
    ∀ path : String, '.' ∉ path.toList → pathKeys path = [path] := by
  refine ⟨fun keys => pathKeys_pathOf, fun path => ⟨?_, pathOf_pathKeys path⟩,
    Function.LeftInverse.injective pathOf_pathKeys,
    fun before after h => pathKeys_append_dot h after,
    pathKeys_append_escaped, fun path h => ?_⟩
  · simpa [pathKeys] using spellable_splitPath path.toList
  · simp [pathKeys, splitPath_of_not_mem h]

/-- A key with dots, and a last key that ends with a backslash. -/
theorem paths_spell_keys_of_dotted_key :
    let keys := ["annotations", "kubernetes.io/ingress.class", "a\\"]
    Spellable (keys.map String.toList) ∧
      pathOf keys = "annotations.kubernetes\\.io/ingress\\.class.a\\" ∧
      pathKeys "annotations.kubernetes\\.io/ingress\\.class.a\\" = keys := by
  intro keys
  have hspellable : Spellable (keys.map String.toList) := ⟨by decide, by decide⟩
  have hpath : pathOf keys = "annotations.kubernetes\\.io/ingress\\.class.a\\" := by
    decide +kernel
  have hkeys := paths_spell_keys.1 keys hspellable
  rw [hpath] at hkeys
  exact ⟨hspellable, hpath, hkeys⟩

end ServerManifests.Values
