import ServerManifests.Kubernetes.Shape
import ServerManifests.Proofs.Codec.Lens
import ServerManifests.Proofs.Yaml.Similar

/-!
Reading without regard to order. Where no value has a tag, names are spelled by their
texts, each at most once in a mapping; so what is read under a name does not depend on
where its entry stands, and a failure for one entry is a failure wherever that is.
-/
namespace ServerManifests

open Yaml Value

variable {α β S : Type}

/-- Similar trees that are looked up by texts. -/
structure Reordered (value value' : Value) : Prop where
  similar : value.Similar value'
  wellFormed : value.WellFormed
  wellFormed' : value'.WellFormed
  noTag : value.Everywhere NoTag
  noTag' : value'.Everywhere NoTag

namespace Reordered

variable {value value' : Value} {es es' : Entries}

theorem symm (h : Reordered value value') : Reordered value' value :=
  ⟨h.similar.symm, h.wellFormed', h.wellFormed, h.noTag', h.noTag⟩

theorem refl (hwell : value.WellFormed) (hplain : value.hasTag = false) : Reordered value value :=
  ⟨.refl value, hwell, hwell, everywhere_noTag hplain, everywhere_noTag hplain⟩

/-- Another order of the entries of a mapping. -/
theorem of_perm (hwell : (Value.map es).WellFormed) (hplain : (Value.map es).hasTag = false)
    (hperm : es.Perm es') : Reordered (.map es) (.map es') := by
  have hdistinct : Entries.Distinct es' := Entries.Distinct.perm hwell.here hperm
  have hmove {p : Value → Prop} (h : (Value.map es).Everywhere p) (here : p (.map es')) :
      (Value.map es').Everywhere p :=
    everywhere_map_iff.2 ⟨here, fun e he => (everywhere_map_iff.1 h).2 e (hperm.mem_iff.2 he)⟩
  refine ⟨(similar_map_iff_perm hwell.here hdistinct).2 ⟨es, hperm.symm, ?_⟩, hwell,
    hmove hwell hdistinct, everywhere_noTag hplain, hmove (everywhere_noTag hplain) trivial⟩
  exact List.forall₂_same.2 fun e _ => ⟨agrees_self e.1, .refl e.2⟩

theorem eq_of_isScalar (h : Reordered value value') (hscalar : value.IsScalar) :
    value' = value := by
  cases h.similar with
  | scalar => rfl
  | list => exact hscalar.elim
  | map => exact hscalar.elim
  | tagged => exact hscalar.elim

theorem untagged_eq (h : Reordered value value') : value.untagged = value :=
  untagged_of_noTag h.noTag.here

theorem items {items : List Value} (h : Reordered (.list items) value') :
    ∃ items', value' = .list items' ∧ List.Forall₂ Reordered items items' := by
  cases value' with
  | list items' =>
    refine ⟨items', rfl, List.forall₂_iff_zip.2 ?_⟩
    obtain ⟨hlength, heach⟩ := List.forall₂_iff_zip.1 (similar_list_iff.1 h.similar)
    refine ⟨hlength, fun {item item'} hmem => ?_⟩
    obtain ⟨hitem, hitem'⟩ := List.of_mem_zip hmem
    exact ⟨heach hmem, h.wellFormed.child hitem, h.wellFormed'.child hitem',
      h.noTag.child hitem, h.noTag'.child hitem'⟩
  | _ => cases h.similar

theorem exists_map (h : Reordered (.map es) value') : ∃ es', value' = .map es' := by
  obtain ⟨es', rfl, -⟩ := h.similar.exists_map rfl
  exact ⟨es', rfl⟩

theorem find? (h : Reordered (.map es) (.map es')) (key : Value) :
    Option.Rel Reordered (es.find? key) (es'.find? key) := by
  obtain ⟨hsome, heach⟩ := optionRel_iff.1 (similar_map_iff.1 h.similar key)
  refine optionRel_iff.2 ⟨hsome, fun present present' hfind hfind' => ?_⟩
  exact ⟨heach present present' hfind hfind', h.wellFormed.find? hfind, h.wellFormed'.find? hfind',
    h.noTag.find? hfind, h.noTag'.find? hfind'⟩

theorem noTag_keys (h : Reordered (.map es) value') : ∀ e ∈ es, e.1.NoTag := fun e he =>
  ((everywhere_map_iff.1 h.noTag).2 e he).1.here

end Reordered

/-- Whether what is read from one value is read from the other one too. -/
def Follows (read : Value → Except ReadError α) (value value' : Value) : Prop :=
  ∀ a, read value = .ok a → read value' = .ok a

/-- Reading that gives the same for similar trees. -/
def Respects (read : Value → Except ReadError α) : Prop :=
  ∀ value value', Reordered value value' → Follows read value value'

theorem Respects.eq_ok_iff {read : Value → Except ReadError α} (h : Respects read)
    {value value' : Value} (hreordered : Reordered value value') (a : α) :
    read value = .ok a ↔ read value' = .ok a :=
  ⟨h value value' hreordered a, h value' value hreordered.symm a⟩

/-- What is read from scalars only does not see any order. -/
theorem respects_of_scalar {read : Value → Except ReadError α}
    (hlist : ∀ items a, read (.list items) ≠ .ok a) (hmap : ∀ es a, read (.map es) ≠ .ok a) :
    Respects read := by
  intro value value' hreordered a hread
  have hscalar : value.IsScalar := by
    cases value with
    | list items => exact absurd hread (hlist items a)
    | map es => exact absurd hread (hmap es a)
    | tagged tag value => exact hreordered.noTag.here
    | _ => trivial
  rw [hreordered.eq_of_isScalar hscalar]
  exact hread

theorem Respects.map {read : Value → Except ReadError α} (h : Respects read) (f : α → β) :
    Respects fun value => (read value).map f := by
  intro value value' hreordered b hread
  obtain ⟨a, ha, rfl⟩ := map_eq_ok_iff.1 hread
  exact map_eq_ok_iff.2 ⟨a, h value value' hreordered a ha, rfl⟩

namespace Codec

theorem respects_readBool : Respects readBool :=
  respects_of_scalar (fun _ _ h => nomatch h) (fun _ _ h => nomatch h)

theorem respects_readInt (low high : Int) (expected : String) :
    Respects (readInt low high expected) :=
  respects_of_scalar (fun _ _ h => nomatch h) (fun _ _ h => nomatch h)

theorem respects_readText (expected : String) : Respects (readText expected) :=
  respects_of_scalar (fun _ _ h => nomatch h) (fun _ _ h => nomatch h)

theorem respects_readScalar : Respects readScalar :=
  respects_of_scalar (fun _ _ h => nomatch h) (fun _ _ h => nomatch h)

theorem respects_choice (choice : Choice α) : Respects choice.codec.read :=
  respects_of_scalar (fun _ _ h => nomatch h) (fun _ _ h => nomatch h)

theorem respects_bool : Respects bool.read := respects_readBool

theorem respects_int32 : Respects int32.read := (respects_readInt _ _ _).map _

theorem respects_uint32 : Respects uint32.read := (respects_readInt _ _ _).map _

theorem respects_text : Respects text.read := respects_readText _

theorem respects_scalar : Respects scalar.read := respects_readScalar

end Codec

theorem Respects.option {read : Value → Except ReadError α} (h : Respects read) :
    Respects (Codec.readOption read) := by
  intro value value' hreordered a hread
  by_cases hnull : value = .null
  · subst hnull
    rw [hreordered.eq_of_isScalar trivial]
    exact hread
  · have hnull' : value' ≠ .null := by
      rintro rfl
      exact hnull (hreordered.symm.eq_of_isScalar trivial)
    rw [Codec.readOption_of_ne_null hnull] at hread
    rw [Codec.readOption_of_ne_null hnull']
    exact h.map some value value' hreordered a hread

theorem mapM_of_forall₂ {read : Value → Except ReadError α} {items items' : List Value}
    (h : List.Forall₂ (Follows read) items items') {as : List α}
    (hread : items.mapM read = .ok as) : items'.mapM read = .ok as := by
  induction h generalizing as with
  | nil => exact hread
  | cons hhead hrest ih =>
    rw [List.mapM_cons] at hread ⊢
    obtain ⟨a, ha, hread⟩ := bind_eq_ok_iff.1 hread
    obtain ⟨as', has, hread⟩ := bind_eq_ok_iff.1 hread
    exact bind_eq_ok_iff.2 ⟨a, hhead a ha, bind_eq_ok_iff.2 ⟨as', ih has, hread⟩⟩

/-- Items read one by one give the same list, if each of them is read in any order. -/
theorem mapM_of_reordered {read : Value → Except ReadError α} {items : List Value} {value' : Value}
    (h : Reordered (.list items) value')
    (hitems : ∀ item ∈ items, ∀ item', Reordered item item' → Follows read item item')
    {as : List α} (hread : items.mapM read = .ok as) :
    ∃ items', value' = .list items' ∧ items'.mapM read = .ok as := by
  obtain ⟨items', rfl, hall⟩ := h.items
  obtain ⟨hlength, heach⟩ := List.forall₂_iff_zip.1 hall
  refine ⟨items', rfl, mapM_of_forall₂ (List.forall₂_iff_zip.2 ⟨hlength, ?_⟩) hread⟩
  exact fun {item item'} hmem => hitems item (List.of_mem_zip hmem).1 item' (heach hmem)

theorem Respects.list {read : Value → Except ReadError α} (h : Respects read) :
    Respects fun value => Codec.readItems value >>= fun items => items.mapM read := by
  intro value value' hreordered as hread
  obtain ⟨items, hitems, hmap⟩ := bind_eq_ok_iff.1 hread
  cases value with
  | list items =>
    obtain rfl := Except.ok.inj hitems
    obtain ⟨items', rfl, hmap'⟩ := mapM_of_reordered hreordered (fun item _ => h item) hmap
    exact hmap'
  | null =>
    obtain rfl := hreordered.eq_of_isScalar trivial
    exact hread
  | tagged tag value => exact hreordered.noTag.here.elim
  | _ => cases hitems

theorem Codec.respects_option {codec : Codec α} (h : Respects codec.read) :
    Respects codec.option.read := h.option

theorem Codec.respects_list {codec : Codec α} (h : Respects codec.read) :
    Respects codec.list.read := h.list

theorem spelling?_of_agrees {key key' : Value} {name : String} (hplain : key.NoTag)
    (hagrees : key.agrees key' = true) (hname : key.spelling? = some name) :
    key'.spelling? = some name := by
  have hkey : key = .text name := by
    unfold spelling? at hname
    rw [untagged_of_noTag hplain] at hname
    cases key with
    | text s => exact congrArg Value.text (Option.some.inj hname)
    | _ => cases hname
  rw [hkey, agrees_comm] at hagrees
  rw [agrees_text_iff.1 hagrees]
  rfl

namespace Reordered

variable {value value' : Value} {es es' : Entries}

/-- Every entry on one side has its counterpart on the other one. -/
theorem exists_entry (h : Reordered (.map es) (.map es')) {e' : Value × Value} (he' : e' ∈ es') :
    ∃ e ∈ es, Reordered e.2 e'.2 ∧
      ∀ name, e.1.spelling? = some name → e'.1.spelling? = some name := by
  have hfind' := (Entries.find?_eq_some_iff h.wellFormed'.here).2 ⟨e'.1, he', agrees_self _⟩
  obtain ⟨present, hfind, hreordered⟩ := exists_of_optionRel (h.symm.find? e'.1) hfind'
  obtain ⟨k, hmem, hk⟩ := Entries.mem_of_find?_eq_some hfind
  exact ⟨(k, present), hmem, hreordered.symm,
    fun name => spelling?_of_agrees (h.noTag_keys _ hmem) hk⟩

/-- Entries are found on both sides or on none, where null stands for no entries. -/
theorem exists_entries (h : Reordered value value') {expected : String}
    (hes : Codec.readEntries expected value = .ok es) :
    ∃ es', Codec.readEntries expected value' = .ok es' ∧ Reordered (.map es) (.map es') := by
  rcases Codec.readEntries_eq_ok_iff.1 hes with hmap | ⟨hnull, rfl⟩
  · rw [h.untagged_eq] at hmap
    subst hmap
    obtain ⟨es', rfl⟩ := h.exists_map
    exact ⟨es', rfl, h⟩
  · rw [h.untagged_eq] at hnull
    subst hnull
    rw [h.eq_of_isScalar trivial]
    exact ⟨[], rfl, .refl (by decide) rfl⟩

theorem spelled? (h : Reordered (.map es) (.map es')) (name : String) :
    Option.Rel Reordered (es.spelled? name) (es'.spelled? name) := by
  rw [Entries.spelled?_eq_find?_of_noTag h.wellFormed.here h.noTag_keys,
    Entries.spelled?_eq_find?_of_noTag h.wellFormed'.here h.symm.noTag_keys]
  exact h.find? (.text name)

end Reordered

namespace Codec

variable {es es' : Entries}

theorem taken_of_rel {read : Value → Except ReadError α} {given given' : Option Value}
    {before after after' : α} (hgiven : Option.Rel (Follows read) given given')
    (h : Taken read given before after) (h' : Taken read given' before after') :
    after' = after := by
  cases hgiven with
  | none => exact Eq.trans h' (Eq.symm h)
  | some hfollows => exact Except.ok.inj (Eq.trans (Eq.symm h') (hfollows after h))

/-- Entries read into a map in any order give the same map, if their values are read
in any order. -/
theorem foldlM_mapStep_of_reordered {read : Value → Except ReadError α} {m : TextMap α}
    (h : Reordered (.map es) (.map es'))
    (hvalues : ∀ e ∈ es, ∀ value', Reordered e.2 value' → Follows read e.2 value')
    (hread : es.foldlM (mapStep read) {} = .ok m) : es'.foldlM (mapStep read) {} = .ok m := by
  have hentries := foldlM_mapStep_ok_iff.1 ⟨m, hread⟩
  obtain ⟨m', hread'⟩ := (foldlM_mapStep_ok_iff (m := {})).2 fun e' he' => by
    obtain ⟨e, he, hvalue, hname⟩ := h.exists_entry he'
    obtain ⟨⟨name, hspelling⟩, a, ha⟩ := hentries e he
    exact ⟨⟨name, hname name hspelling⟩, a, hvalues e he e'.2 hvalue a ha⟩
  have hsame : m' = m := by
    refine TextMap.ext_get? fun name => ?_
    refine taken_of_rel ?_ (taken_mapStep hread name) (taken_mapStep hread' name)
    obtain ⟨hsome, heach⟩ := optionRel_iff.1 (h.spelled? name)
    refine optionRel_iff.2 ⟨hsome, fun given given' hgiven hgiven' => ?_⟩
    obtain ⟨e, hlast, rfl⟩ := Option.map_eq_some_iff.1 hgiven
    obtain ⟨hmem, -⟩ := Entries.spelling?_of_lastSpelled? hlast
    intro a hsome
    obtain ⟨b, hb, rfl⟩ := map_eq_ok_iff.1 hsome
    exact map_eq_ok_iff.2 ⟨b, hvalues e hmem given' (heach e.2 given' hgiven hgiven') b hb, rfl⟩
  rw [hread', hsame]

theorem respects_readMap {read : Value → Except ReadError α} (h : Respects read) :
    Respects (readMap read) := by
  intro value value' hreordered m hread
  obtain ⟨es, hes, hfold⟩ := readMap_eq_ok_iff.1 hread
  obtain ⟨es', hes', hentries⟩ := hreordered.exists_entries hes
  have hfold' := foldlM_mapStep_of_reordered hentries (fun e _ => h e.2) hfold
  exact readMap_eq_ok_iff.2 ⟨es', hes', hfold'⟩

theorem respects_textMap : Respects textMap.read :=
  (respects_readMap respects_readScalar.option).map _

/-- The members of an object are read as the entries of a map are. -/
theorem readSettingEntries_eq_ok_iff {expected : String} {members members' : TextMap Setting} :
    readSettingEntries expected members es = .ok members' ↔
      es.foldlM (mapStep readSetting) members = .ok members' := by
  induction es generalizing expected members with
  | nil => exact Iff.rfl
  | cons e rest ih =>
    obtain ⟨key, value⟩ := e
    rw [readSettingEntries, List.foldlM_cons]
    simp only [bind_eq_ok_iff, mapStep_eq_ok_iff, readText_eq_ok_iff, ih]
    constructor
    · rintro ⟨name, hname, setting, hsetting, hrest⟩
      exact ⟨_, ⟨name, setting, hname, hsetting, rfl⟩, hrest⟩
    · rintro ⟨_, ⟨name, setting, hname, hsetting, rfl⟩, hrest⟩
      exact ⟨name, hname, setting, hsetting, hrest⟩

theorem readSettingItems_eq_mapM (items : List Value) :
    readSettingItems items = items.mapM readSetting := by
  induction items with
  | nil => rfl
  | cons item rest ih =>
    rw [readSettingItems, List.mapM_cons, ih]

theorem follows_readSetting {value value' : Value} (h : Reordered value value') :
    Follows readSetting value value' := by
  intro setting hread
  have hbelow : ∀ child ∈ value.children, ∀ child', Reordered child child' →
      Follows readSetting child child' := fun child hchild child' hchild' =>
    follows_readSetting hchild'
  cases value with
  | list items =>
    rw [readSetting, readSettingItems_eq_mapM] at hread
    obtain ⟨settings, hsettings, rfl⟩ := map_eq_ok_iff.1 hread
    obtain ⟨items', rfl, hsettings'⟩ := mapM_of_reordered h hbelow hsettings
    rw [readSetting, readSettingItems_eq_mapM]
    exact map_eq_ok_iff.2 ⟨settings, hsettings', rfl⟩
  | map es =>
    obtain ⟨es', rfl⟩ := h.exists_map
    rw [readSetting] at hread ⊢
    obtain ⟨members, hmembers, rfl⟩ := map_eq_ok_iff.1 hread
    rw [readSettingEntries_eq_ok_iff] at hmembers
    refine map_eq_ok_iff.2 ⟨members, readSettingEntries_eq_ok_iff.2 ?_, rfl⟩
    refine foldlM_mapStep_of_reordered h (fun e he => hbelow e.2 ?_) hmembers
    exact List.mem_append_right _ (List.mem_map_of_mem he)
  | tagged tag content => exact h.noTag.here.elim
  | _ =>
    rw [h.eq_of_isScalar trivial]
    exact hread
termination_by value
decreasing_by exact sizeOf_lt_of_mem_children hchild

theorem respects_settings : Respects settings.read :=
  respects_readMap fun _ _ => follows_readSetting

end Codec

namespace Kubernetes.Shape

open Codec

/-- Reads the field of an entry into what was found so far. -/
def fieldStep (fields : List (String × Bool × Shape)) (found : List (String × Option Json))
    (e : Value × Value) : Except ReadError (List (String × Option Json)) := do
  let name ← readText "field identifier" e.1
  match ← readField fields name e.2 with
  | none => return found
  | some json => return (name, json) :: found

theorem fieldStep_eq_ok_iff {fields : List (String × Bool × Shape)}
    {found found' : List (String × Option Json)} {e : Value × Value} :
    fieldStep fields found e = .ok found' ↔
      ∃ name json?, e.1.spelling? = some name ∧ readField fields name e.2 = .ok json? ∧
        found' = (json?.map (name, ·)).toList ++ found := by
  unfold fieldStep
  simp only [bind_eq_ok_iff, readText_eq_ok_iff, ← exists_and_left]
  refine exists_congr fun name => exists_congr fun json? => ?_
  cases json? with
  | none => simp [pure, Except.pure, eq_comm]
  | some json => simp [pure, Except.pure, eq_comm]

theorem exists_foldlM_fieldStep_iff {fields : List (String × Bool × Shape)} {es : Entries}
    (found : List (String × Option Json)) :
    (∃ found', es.foldlM (fieldStep fields) found = .ok found') ↔
      ∀ e ∈ es, ∃ name json?, e.1.spelling? = some name ∧
        readField fields name e.2 = .ok json? := by
  refine exists_foldlM_iff fun e found => ?_
  simp only [fieldStep_eq_ok_iff]
  constructor
  · rintro ⟨found', name, json?, hname, hjson, -⟩
    exact ⟨name, json?, hname, hjson⟩
  · rintro ⟨name, json?, hname, hjson⟩
    exact ⟨_, name, json?, hname, hjson, rfl⟩

theorem readField_ne_none {fields : List (String × Bool × Shape)} {name : String} {value : Value}
    (hname : name ∈ fields.map Prod.fst) : readField fields name value ≠ .ok none := by
  induction fields with
  | nil => exact nomatch hname
  | cons field rest ih =>
    obtain ⟨other, always, shape⟩ := field
    rw [readField]
    split
    · intro hread
      obtain ⟨json, -, hsome⟩ := map_eq_ok_iff.1 hread
      cases hsome
    · next hne =>
      exact ih ((List.mem_cons.1 hname).resolve_left (Ne.symm hne))

theorem taken_fieldStep {fields : List (String × Bool × Shape)} {es : Entries} {name : String}
    {found found' : List (String × Option Json)} (hname : name ∈ fields.map Prod.fst)
    (h : es.foldlM (fieldStep fields) found = .ok found') :
    Taken (readField fields name) (es.spelled? name) (found.lookup name)
      (found'.lookup name) := by
  induction es generalizing found with
  | nil =>
    obtain rfl := Except.ok.inj h
    rfl
  | cons e rest ih =>
    rw [List.foldlM_cons] at h
    obtain ⟨between, hhead, hrest⟩ := bind_eq_ok_iff.1 h
    obtain ⟨spelled, json?, hspelled, hjson, rfl⟩ := fieldStep_eq_ok_iff.1 hhead
    refine taken_cons ?_ (ih hrest)
    rw [hspelled]
    by_cases heq : spelled = name
    · subst heq
      cases json? with
      | none => exact absurd hjson (readField_ne_none hname)
      | some json =>
        rw [if_pos rfl]
        change readField fields spelled e.2 = .ok (List.lookup spelled ((spelled, json) :: found))
        rw [hjson, List.lookup_cons_self]
    · rw [if_neg fun h => heq (Option.some.inj h)]
      change List.lookup name _ = found.lookup name
      cases json? with
      | none => rfl
      | some json =>
        change List.lookup name ((spelled, json) :: found) = _
        rw [TextMap.lookup_cons_eq, if_neg (Ne.symm heq)]

theorem arrange_congr {found found' : List (String × Option Json)}
    {fields : List (String × Bool × Shape)}
    (h : ∀ name ∈ fields.map Prod.fst, found.lookup name = found'.lookup name) :
    arrange found fields = arrange found' fields := by
  induction fields with
  | nil => rfl
  | cons field rest ih =>
    obtain ⟨name, always, shape⟩ := field
    obtain ⟨hname, hrest⟩ := List.forall_mem_cons.1 h
    rw [arrange, arrange, hname, ih hrest]

theorem respects_object {name : String} {fields : List (String × Bool × Shape)}
    (hfields : ∀ field, Respects (readField fields field)) :
    Respects (read (.object name fields)) := by
  intro value value' h json hread
  rw [read] at hread
  obtain ⟨es, hes, hread'⟩ := bind_eq_ok_iff.1 hread
  obtain ⟨found, hfound, hjson⟩ := bind_eq_ok_iff.1 hread'
  obtain ⟨es', hes', hentries⟩ := h.exists_entries hes
  have hnamed := (exists_foldlM_fieldStep_iff []).1 ⟨found, hfound⟩
  obtain ⟨found', hfound'⟩ := (exists_foldlM_fieldStep_iff []).2 fun e' he' => by
    obtain ⟨e, he, hvalue, hname⟩ := hentries.exists_entry he'
    obtain ⟨field, json?, hspelling, hjson⟩ := hnamed e he
    exact ⟨field, json?, hname field hspelling, hfields field e.2 e'.2 hvalue json? hjson⟩
  -- What was found differs in its order, but each field is looked up by its name.
  have hsame : arrange found' fields = arrange found fields := by
    refine arrange_congr fun field hfield => ?_
    refine taken_of_rel ?_ (taken_fieldStep hfield hfound) (taken_fieldStep hfield hfound')
    obtain ⟨hsome, heach⟩ := optionRel_iff.1 (hentries.spelled? field)
    exact optionRel_iff.2 ⟨hsome, fun given given' hgiven hgiven' =>
      hfields field given given' (heach given given' hgiven hgiven')⟩
  rw [read]
  refine bind_eq_ok_iff.2 ⟨es', hes', bind_eq_ok_iff.2 ⟨found', hfound', ?_⟩⟩
  rw [hsame]
  exact hjson

mutual

theorem respects_read (shape : Shape) : Respects shape.read := by
  cases shape with
  | text => exact (respects_readText _).map _
  | bool => exact respects_readBool.map _
  | int32 => exact (respects_readInt _ _ _).map _
  | int64 => exact (respects_readInt _ _ _).map _
  | list item =>
    have hmap : (list item).read = fun value =>
        (readItems value >>= fun items => items.mapM item.read).map .list := by
      funext value
      rw [read]
      cases readItems value with
      | error error => rfl
      | ok items =>
        change (items.mapM item.read >>= fun jsons => pure (Json.list jsons)) =
          (items.mapM item.read).map Json.list
        cases items.mapM item.read <;> rfl
    rw [hmap]
    exact (respects_read item).list.map _
  | map content => exact (respects_readMap (respects_read content)).map _
  | object name fields => exact respects_object fun field => respects_readField fields field

theorem respects_readField (fields : List (String × Bool × Shape)) (name : String) :
    Respects (readField fields name) := by
  cases fields with
  | nil => exact fun value value' h json? hread => hread
  | cons field rest =>
    obtain ⟨other, always, shape⟩ := field
    intro value value' h json? hread
    rw [readField] at hread ⊢
    split at hread
    · next heq =>
      rw [if_pos heq]
      exact (respects_read shape).option.map some value value' h json? hread
    · next hne =>
      rw [if_neg hne]
      exact respects_readField rest name value value' h json? hread

end

end Kubernetes.Shape

namespace Field

theorem respects_required {name description : String} {codec : Codec α} {get : S → α}
    {set : α → S → S} (h : Respects codec.read) :
    Respects (required name description codec get set).read := h.map set

theorem respects_optional {name description : String} {codec : Codec α} {get : S → Option α}
    {set : Option α → S → S} (h : Respects codec.read) :
    Respects (optional name description codec get set).read := h.option.map set

end Field

namespace Record

theorem readFields_of_forall₂ {fields : List (Field S)} {es arranged : Entries}
    (hfields : ∀ field ∈ fields, Respects field.read)
    (h : List.Forall₂ (fun e e' =>
      (∀ name, e.1.spelling? = some name → e'.1.spelling? = some name) ∧ Reordered e.2 e'.2)
      es arranged) {seen : List String} {record record' : S}
    (hread : readFields fields seen record es = .ok record') :
    readFields fields seen record arranged = .ok record' := by
  induction h generalizing seen record with
  | nil => exact hread
  | cons hhead hrest ih =>
    obtain ⟨name, hname, hcase⟩ := readFields_cons_eq_ok_iff.1 hread
    refine readFields_cons_eq_ok_iff.2 ⟨name, hhead.1 name hname, ?_⟩
    rcases hcase with ⟨hnone, hread⟩ | ⟨field, update, hfield, hseen, hvalue, hread⟩
    · exact .inl ⟨hnone, ih hread⟩
    · refine .inr ⟨field, update, hfield, hseen, ?_, ih hread⟩
      exact hfields field (List.mem_of_find?_eq_some hfield) _ _ hhead.2 update hvalue

/-- A record is read from its entries in any order if its fields are. -/
theorem Lawful.respects_codec {r : Record S} (h : r.Lawful)
    (hfields : ∀ field ∈ r.fields, Respects field.read) : Respects r.codec.read := by
  intro value value' hreordered record hread
  obtain ⟨es, hes, hfold⟩ := bind_eq_ok_iff.1 hread
  obtain ⟨es', hes', hentries⟩ := hreordered.exists_entries hes
  obtain ⟨arranged, hperm, hall⟩ := Entries.exists_perm_forall₂ hentries.wellFormed.here
    hentries.wellFormed'.here hentries.find?
  refine bind_eq_ok_iff.2 ⟨es', hes', h.readFields_perm hperm.symm ?_⟩
  obtain ⟨hlength, heach⟩ := List.forall₂_iff_zip.1 hall
  have hplain : ∀ e e', (e, e') ∈ es.zip arranged → e.1.NoTag := fun e _ hmem =>
    hentries.noTag_keys e (List.of_mem_zip hmem).1
  -- The order is changed first, and only then the values, entry by entry.
  refine readFields_of_forall₂ hfields (List.forall₂_iff_zip.2 ⟨hlength, ?_⟩) hfold
  exact fun {e e'} hmem => ⟨fun name => spelling?_of_agrees (hplain e e' hmem) (heach hmem).1,
    (heach hmem).2⟩

end Record

end ServerManifests
