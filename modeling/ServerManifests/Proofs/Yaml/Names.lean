import ServerManifests.Proofs.Yaml.Tree

/-!
Names that keys spell. A name is read from a text under any tags, so a mapping can
have a name twice, by its text and by twins of it under a tag. Setting the text
leaves the twins; of all entries of a name the last one is read.
-/
namespace ServerManifests.Yaml

open Value

/-- The name that a key is read as. -/
def Value.spelling? (key : Value) : Option String :=
  match key.untagged with
  | .text s => some s
  | _ => none

namespace Entries

/-- The last entry whose key spells a name. -/
def lastSpelled? (es : Entries) (name : String) : Option (Value × Value) :=
  es.findRev? fun e => e.1.spelling? = some name

/-- The value of the last entry whose key spells a name. -/
def spelled? (es : Entries) (name : String) : Option Value :=
  (es.lastSpelled? name).map (·.2)

theorem lastSpelled?_cons (e : Value × Value) (rest : Entries) (name : String) :
    Entries.lastSpelled? (e :: rest) name =
      (rest.lastSpelled? name).or (if e.1.spelling? = some name then some e else none) := by
  unfold lastSpelled?
  rw [List.findRev?_eq_find?_reverse, List.findRev?_eq_find?_reverse, List.reverse_cons,
    List.find?_append, List.find?_singleton]
  simp only [decide_eq_true_eq]

theorem spelled?_cons (e : Value × Value) (rest : Entries) (name : String) :
    Entries.spelled? (e :: rest) name =
      (rest.spelled? name).or (if e.1.spelling? = some name then some e.2 else none) := by
  unfold spelled?
  rw [lastSpelled?_cons, Option.map_or]
  by_cases hname : e.1.spelling? = some name
  · rw [if_pos hname, if_pos hname, Option.map_some]
  · rw [if_neg hname, if_neg hname, Option.map_none]

theorem lastSpelled?_eq_none_iff {es : Entries} {name : String} :
    es.lastSpelled? name = none ↔ ∀ e ∈ es, e.1.spelling? ≠ some name := by
  unfold lastSpelled?
  rw [List.findRev?_eq_find?_reverse, List.find?_eq_none]
  simp

theorem spelling?_of_lastSpelled? {es : Entries} {name : String} {e : Value × Value}
    (h : es.lastSpelled? name = some e) : e ∈ es ∧ e.1.spelling? = some name := by
  unfold lastSpelled? at h
  rw [List.findRev?_eq_find?_reverse] at h
  exact ⟨List.mem_reverse.1 (List.mem_of_find?_eq_some h), by simpa using List.find?_some h⟩

/-- A key other than the text that spells a name. -/
def isTwin (name : String) (e : Value × Value) : Bool :=
  decide (e.1.spelling? = some name) && !e.1.agrees (.text name)

def hasTwin (es : Entries) (name : String) : Bool := es.any (isTwin name)

theorem spelling?_iff_of_not_twin {name : String} {e : Value × Value}
    (h : isTwin name e = false) :
    e.1.spelling? = some name ↔ e.1.agrees (.text name) = true := by
  constructor
  · intro hspelling
    by_contra hne
    simp [isTwin, hspelling, hne] at h
  · intro hagrees
    rw [agrees_text_iff.1 hagrees]
    rfl

theorem hasTwin_eq_false_iff {es : Entries} {name : String} :
    es.hasTwin name = false ↔ ∀ e ∈ es, isTwin name e = false := by
  unfold hasTwin
  rw [List.any_eq_false]
  simp only [Bool.not_eq_true]

theorem isTwin_eq_false_of_noTag {name : String} {e : Value × Value} (h : e.1.NoTag) :
    isTwin name e = false := by
  obtain ⟨key, value⟩ := e
  cases key with
  | tagged tag content => exact h.elim
  | text s =>
    by_cases hname : s = name
    · subst hname
      simp [isTwin, agrees_self]
    · simp [isTwin, spelling?, untagged, hname]
  | _ => rfl

/-- A name that is spelled once, without a twin, is spelled by its text. -/
theorem spelled?_eq_find? {es : Entries} {name : String} (htwin : es.hasTwin name = false)
    (honce : es.Pairwise fun a b => a.1.spelling? = some name → b.1.spelling? ≠ some name) :
    es.spelled? name = es.find? (.text name) := by
  rw [hasTwin_eq_false_iff] at htwin
  induction es with
  | nil => rfl
  | cons e rest ih =>
    obtain ⟨hhead, hrest⟩ := List.forall_mem_cons.1 htwin
    obtain ⟨hfirst, honceRest⟩ := List.pairwise_cons.1 honce
    have hiff := spelling?_iff_of_not_twin hhead
    rw [spelled?_cons, find?_cons]
    by_cases hname : e.1.agrees (.text name)
    · have hspelling := hiff.2 hname
      have hnone : Entries.lastSpelled? rest name = none :=
        lastSpelled?_eq_none_iff.2 fun e' he' => hfirst e' he' hspelling
      rw [if_pos hname, if_pos hspelling]
      unfold spelled?
      rw [hnone]
      rfl
    · rw [if_neg hname, if_neg fun h => hname (hiff.1 h), Option.or_none]
      exact ih hrest honceRest

/-- In a mapping without tags and with distinct keys all names are spelled by
their texts. -/
theorem spelled?_eq_find?_of_noTag {es : Entries} (hdistinct : es.Distinct)
    (hkeys : ∀ e ∈ es, e.1.NoTag) (name : String) : es.spelled? name = es.find? (.text name) := by
  have htwin : ∀ e ∈ es, isTwin name e = false := fun e he =>
    isTwin_eq_false_of_noTag (hkeys e he)
  refine spelled?_eq_find? (hasTwin_eq_false_iff.2 htwin) ?_
  refine List.Pairwise.imp_of_mem ?_ hdistinct
  intro a b ha hb hne hspelling hspelling'
  have hagrees := (spelling?_iff_of_not_twin (htwin a ha)).1 hspelling
  have hagrees' := (spelling?_iff_of_not_twin (htwin b hb)).1 hspelling'
  rw [agrees_text_iff.1 hagrees, agrees_text_iff.1 hagrees', agrees_self] at hne
  cases hne

end Entries

namespace Entries

theorem spelled?_append (first second : Entries) (name : String) :
    Entries.spelled? (first ++ second) name =
      (second.spelled? name).or (first.spelled? name) := by
  induction first with
  | nil =>
    have hnil : Entries.spelled? [] name = none := rfl
    rw [List.nil_append, hnil, Option.or_none]
  | cons e rest ih => rw [List.cons_append, spelled?_cons, spelled?_cons, ih, Option.or_assoc]

/-- After a replacement the last entry of the name has the new value if its key is
the one that was replaced. -/
theorem spelled?_replace (es : Entries) (key value : Value) (name : String) :
    (es.replace key value).spelled? name =
      (es.lastSpelled? name).map fun e => if e.1.agrees key then value else e.2 := by
  induction es with
  | nil => rfl
  | cons e rest ih =>
    change Entries.spelled? ((if e.1.agrees key then (e.1, value) else e) ::
      Entries.replace rest key value) name = _
    rw [spelled?_cons, ih, lastSpelled?_cons, Option.map_or]
    congr 1
    by_cases hkey : e.1.agrees key
    · by_cases hname : e.1.spelling? = some name <;> simp [hkey, hname]
    · by_cases hname : e.1.spelling? = some name <;> simp [hkey, hname]

/-- Whether a name is there by its text with a twin after it. -/
def isShadowed (es : Entries) (name : String) : Bool :=
  (es.find? (.text name)).isSome && (es.lastSpelled? name).any (isTwin name)

theorem isShadowed_eq_false_of_hasTwin {es : Entries} {name : String}
    (h : es.hasTwin name = false) : es.isShadowed name = false := by
  unfold isShadowed
  cases hlast : es.lastSpelled? name with
  | none => exact Bool.and_false _
  | some e =>
    have htwin := hasTwin_eq_false_iff.1 h e (spelling?_of_lastSpelled? hlast).1
    simp [htwin]

/-- A name that is set has its new value unless it is shadowed; then nothing changes
for it. -/
theorem spelled?_insert (es : Entries) (value : Value) (name : String) :
    (es.insert (.text name) value).spelled? name =
      if es.isShadowed name then es.spelled? name else some value := by
  unfold insert isShadowed
  cases hfind : es.find? (.text name) with
  | none =>
    have hspelling : (text name).spelling? = some name := rfl
    dsimp only
    rw [spelled?_append, spelled?_cons, if_pos hspelling]
    rfl
  | some present =>
    dsimp only
    rw [spelled?_replace]
    unfold spelled?
    cases hlast : es.lastSpelled? name with
    | none =>
      obtain ⟨key, hmem, hkey⟩ := mem_of_find?_eq_some hfind
      rw [agrees_text_iff.1 hkey] at hmem
      exact absurd rfl (lastSpelled?_eq_none_iff.1 hlast _ hmem)
    | some e =>
      have hspelling := (spelling?_of_lastSpelled? hlast).2
      by_cases hkey : e.1.agrees (.text name)
      · simp [isTwin, hkey]
      · simp [isTwin, hkey, hspelling]

end Entries

end ServerManifests.Yaml
