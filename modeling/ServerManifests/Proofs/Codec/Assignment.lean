import Mathlib.Data.List.Pairwise
import ServerManifests.Proofs.Codec.Reading

/-!
Reading again after one entry was set. Whether a map or a record can be read is
decided entry by entry, so with a new value for one name it can be read exactly if
that value can. A twin of the name changes that: a record then has the field twice,
and a map keeps what a twin after the entry says.
-/
namespace ServerManifests

open Yaml Value

variable {α β S : Type}

namespace Yaml.Entries

theorem assign_eq_insert {value : Value} (h : value.isNull = false) (es : Entries) (key : Value) :
    es.assign key value = es.insert key value := by
  unfold assign insert
  cases es.find? key with
  | none => rfl
  | some present => simp [h]

theorem keys_insert (es : Entries) (key value : Value) :
    (es.insert key value).map Prod.fst =
      if (es.find? key).isSome then es.map Prod.fst else es.map Prod.fst ++ [key] := by
  unfold insert
  cases es.find? key with
  | none => simp
  | some present => exact keys_replace es key value

/-- What holds of the entries holds after one is set, if it holds of that one. -/
theorem forall_mem_insert {p : Value → Value → Prop} {es : Entries} {name : String}
    {value : Value} (hes : ∀ e ∈ es, p e.1 e.2) (hvalue : p (.text name) value) :
    ∀ e ∈ es.insert (.text name) value, p e.1 e.2 := by
  intro e he
  unfold insert at he
  cases hfind : es.find? (.text name) with
  | none =>
    rw [hfind] at he
    rcases List.mem_append.1 he with he | he
    · exact hes e he
    · obtain rfl := List.mem_singleton.1 he
      exact hvalue
  | some present =>
    rw [hfind] at he
    obtain ⟨e', he', rfl⟩ := List.mem_map.1 he
    by_cases hkey : e'.1.agrees (.text name)
    · rw [if_pos hkey, agrees_text_iff.1 hkey]
      exact hvalue
    · rw [if_neg hkey]
      exact hes e' he'

end Yaml.Entries

namespace Codec

theorem foldlM_mapStep_ok_iff {read : Value → Except ReadError α} {es : Entries} {m : TextMap α} :
    (∃ m', es.foldlM (mapStep read) m = .ok m') ↔
      ∀ e ∈ es, (∃ name, e.1.spelling? = some name) ∧ ∃ a, read e.2 = .ok a := by
  refine exists_foldlM_iff fun e m => ?_
  simp only [mapStep_eq_ok_iff]
  constructor
  · rintro ⟨m', name, a, hname, ha, -⟩
    exact ⟨⟨name, hname⟩, a, ha⟩
  · rintro ⟨⟨name, hname⟩, a, ha⟩
    exact ⟨_, name, a, hname, ha, rfl⟩

theorem readEntries_of_untagged {expected : String} {value : Value} {es : Entries}
    (h : value.untagged = .map es) : readEntries expected value = .ok es :=
  readEntries_eq_ok_iff.2 (.inl h)

/-- A map can be read if all its keys are names and all its values can be read. -/
theorem readMap_ok_iff {read : Value → Except ReadError α} {value : Value} {es : Entries}
    (h : value.untagged = .map es) :
    (∃ m, readMap read value = .ok m) ↔
      ∀ e ∈ es, (∃ name, e.1.spelling? = some name) ∧ ∃ a, read e.2 = .ok a := by
  rw [← foldlM_mapStep_ok_iff (m := {})]
  constructor
  · rintro ⟨m, hread⟩
    obtain ⟨es', hes', hfold⟩ := readMap_eq_ok_iff.1 hread
    obtain rfl := Except.ok.inj (hes'.symm.trans (readEntries_of_untagged h))
    exact ⟨m, hfold⟩
  · rintro ⟨m, hfold⟩
    exact ⟨m, readMap_eq_ok_iff.2 ⟨es, readEntries_of_untagged h, hfold⟩⟩

theorem taken_readMap {read : Value → Except ReadError α} {value : Value} {es : Entries}
    {m : TextMap α} (hes : value.untagged = .map es) (hread : readMap read value = .ok m)
    (name : String) :
    Taken (fun value => (read value).map some) (es.spelled? name) none (m.get? name) := by
  obtain ⟨es', hes', hfold⟩ := readMap_eq_ok_iff.1 hread
  obtain rfl := Except.ok.inj (hes'.symm.trans (readEntries_of_untagged hes))
  exact taken_mapStep hfold name

/-- A map with one entry set: the value is there unless a twin comes after it. -/
theorem readMap_insert {read : Value → Except ReadError α} {value value' given : Value}
    {es : Entries} {m : TextMap α} {name : String} {a : α} (hes : value.untagged = .map es)
    (hes' : value'.untagged = .map (es.insert (.text name) given))
    (hread : readMap read value = .ok m) (hgiven : read given = .ok a) :
    ∃ m', readMap read value' = .ok m' ∧
      m'.get? name = if es.isShadowed name then m.get? name else some a := by
  have hentries := Entries.forall_mem_insert
    (p := fun key value => (∃ name, key.spelling? = some name) ∧ ∃ a, read value = .ok a)
    ((readMap_ok_iff hes).1 ⟨m, hread⟩) ⟨⟨name, rfl⟩, a, hgiven⟩
  obtain ⟨m', hread'⟩ := (readMap_ok_iff hes').2 hentries
  refine ⟨m', hread', ?_⟩
  have hbefore := taken_readMap hes hread name
  have hafter := taken_readMap hes' hread' name
  rw [Entries.spelled?_insert] at hafter
  by_cases hshadowed : es.isShadowed name
  · rw [if_pos hshadowed] at hafter ⊢
    cases hspelled : es.spelled? name with
    | none =>
      rw [hspelled] at hbefore hafter
      exact hafter.trans hbefore.symm
    | some present =>
      rw [hspelled] at hbefore hafter
      exact Except.ok.inj (hafter.symm.trans hbefore)
  · rw [if_neg hshadowed] at hafter ⊢
    have hsome : (read given).map some = .ok (m'.get? name) := hafter
    rw [hgiven] at hsome
    exact (Except.ok.inj hsome).symm

/-- The same for texts, of which those that are null are dropped. -/
theorem textMap_read_insert {value value' given : Value} {es : Entries} {m : TextMap String}
    {name : String} {text : String} (hes : value.untagged = .map es)
    (hes' : value'.untagged = .map (es.insert (.text name) given))
    (hread : textMap.read value = .ok m)
    (hgiven : readOption readScalar given = .ok (some text)) :
    ∃ m', textMap.read value' = .ok m' ∧
      m'.get? name = if es.isShadowed name then m.get? name else some text := by
  obtain ⟨read, hmap, rfl⟩ := map_eq_ok_iff.1 hread
  obtain ⟨read', hread', hget⟩ := readMap_insert hes hes' hmap hgiven
  refine ⟨_, map_eq_ok_iff.2 ⟨read', hread', rfl⟩, ?_⟩
  rw [TextMap.get?_filterMap, TextMap.get?_filterMap, hget]
  split <;> rfl

end Codec

namespace Record

/-- A field is given by none of the entries that spell a name. -/
def Ungiven (fields : List (Field S)) (es : Entries) (name : String) : Prop :=
  ∀ e ∈ es, e.1.spelling? = some name → fields.find? (·.name = name) = none

/-- Every key is a name, and the value of a field can be read. -/
def EntryReadable (fields : List (Field S)) (e : Value × Value) : Prop :=
  ∃ name, e.1.spelling? = some name ∧
    ∀ field, fields.find? (·.name = name) = some field → ∃ update, field.read e.2 = .ok update

/-- Entries that can be read as fields, none of them twice. -/
structure Readable (fields : List (Field S)) (es : Entries) : Prop where
  entries : ∀ e ∈ es, EntryReadable fields e
  once : (es.map Prod.fst).Pairwise fun a b => ∀ name, a.spelling? = some name →
    b.spelling? = some name → fields.find? (·.name = name) = none

variable {fields : List (Field S)}

/-- Two keys that spell one name spell no field. -/
theorem Readable.find?_eq_none {es : Entries} (h : Readable fields es) {a b : Value}
    (ha : a ∈ es.map Prod.fst) (hb : b ∈ es.map Prod.fst) (hne : a ≠ b) {name : String}
    (hname : a.spelling? = some name) (hname' : b.spelling? = some name) :
    fields.find? (·.name = name) = none := by
  have : Std.Symm fun a b : Value => ∀ name, a.spelling? = some name →
      b.spelling? = some name → fields.find? (·.name = name) = none :=
    ⟨fun a b h name hb ha => h name ha hb⟩
  exact h.once.forall ha hb hne name hname hname'

theorem ungiven_cons_iff {e : Value × Value} {rest : Entries} {name : String} :
    Ungiven fields (e :: rest) name ↔
      (e.1.spelling? = some name → fields.find? (·.name = name) = none) ∧
        Ungiven fields rest name := List.forall_mem_cons

theorem readable_cons_iff {e : Value × Value} {rest : Entries} :
    Readable fields (e :: rest) ↔ EntryReadable fields e ∧
      (∀ name, e.1.spelling? = some name → Ungiven fields rest name) ∧ Readable fields rest := by
  constructor
  · intro h
    obtain ⟨hentries, honce⟩ := h
    obtain ⟨hentry, hrest⟩ := List.forall_mem_cons.1 hentries
    obtain ⟨hfirst, honceRest⟩ := List.pairwise_cons.1 honce
    refine ⟨hentry, fun name hname e' he' => ?_, hrest, honceRest⟩
    exact hfirst e'.1 (List.mem_map_of_mem he') name hname
  · intro h
    obtain ⟨hentry, hfirst, hrest, honceRest⟩ := h
    refine ⟨List.forall_mem_cons.2 ⟨hentry, hrest⟩, List.pairwise_cons.2 ⟨?_, honceRest⟩⟩
    intro key hkey name hname
    obtain ⟨e', he', rfl⟩ := List.mem_map.1 hkey
    exact hfirst name hname e' he'

theorem readable_of_readFields {seen : List String} {record record' : S} {es : Entries}
    (h : readFields fields seen record es = .ok record') :
    Readable fields es ∧ ∀ name ∈ seen, Ungiven fields es name := by
  induction es generalizing seen record with
  | nil =>
    refine ⟨⟨fun e he => absurd he List.not_mem_nil, List.Pairwise.nil⟩, ?_⟩
    exact fun name _ e he => absurd he List.not_mem_nil
  | cons e rest ih =>
    obtain ⟨name, hname, hcase⟩ := readFields_cons_eq_ok_iff.1 h
    have hsame : ∀ name', e.1.spelling? = some name' → name' = name := fun name' hname' =>
      Option.some.inj (hname'.symm.trans hname)
    rcases hcase with ⟨hnone, hrest⟩ | ⟨field, update, hfield, hseen, hread, hrest⟩
    · obtain ⟨hreadable, hnew⟩ := ih hrest
      have hentry : EntryReadable fields e := by
        refine ⟨name, hname, fun field hfield => ?_⟩
        rw [hnone] at hfield
        cases hfield
      have hunknown : ∀ name', e.1.spelling? = some name' →
          fields.find? (·.name = name') = none := fun name' hname' => hsame name' hname' ▸ hnone
      refine ⟨readable_cons_iff.2 ⟨hentry, ?_, hreadable⟩, fun name' hmem => ?_⟩
      · exact fun name' hname' _ _ _ => hunknown name' hname'
      · exact ungiven_cons_iff.2 ⟨hunknown name', hnew name' hmem⟩
    · obtain ⟨hreadable, hnew⟩ := ih hrest
      have hentry : EntryReadable fields e := by
        refine ⟨name, hname, fun field' hfield' => ⟨update, ?_⟩⟩
        obtain rfl : field = field' := Option.some.inj (hfield.symm.trans hfield')
        exact hread
      refine ⟨readable_cons_iff.2 ⟨hentry, ?_, hreadable⟩, fun name' hmem => ?_⟩
      · intro name' hname'
        rw [hsame name' hname']
        exact hnew name List.mem_cons_self
      · refine ungiven_cons_iff.2 ⟨fun hname' => ?_, hnew name' (List.mem_cons_of_mem _ hmem)⟩
        exact absurd (hsame name' hname' ▸ hmem) hseen

theorem exists_readFields {seen : List String} (record : S) {es : Entries}
    (h : Readable fields es) (hnew : ∀ name ∈ seen, Ungiven fields es name) :
    ∃ record', readFields fields seen record es = .ok record' := by
  induction es generalizing seen record with
  | nil => exact ⟨record, rfl⟩
  | cons e rest ih =>
    obtain ⟨⟨name, hname, hvalue⟩, hfirst, hrest⟩ := readable_cons_iff.1 h
    have hnewRest : ∀ name ∈ seen, Ungiven fields rest name := fun name' hmem =>
      (ungiven_cons_iff.1 (hnew name' hmem)).2
    cases hfield : fields.find? (·.name = name) with
    | none =>
      obtain ⟨record', hread⟩ := ih record hrest hnewRest
      exact ⟨record', readFields_cons_eq_ok_iff.2 ⟨name, hname, .inl ⟨hfield, hread⟩⟩⟩
    | some field =>
      have hseen : name ∉ seen := by
        intro hmem
        rw [(ungiven_cons_iff.1 (hnew name hmem)).1 hname] at hfield
        cases hfield
      obtain ⟨update, hupdate⟩ := hvalue field hfield
      obtain ⟨record', hread⟩ := ih (update record) hrest
        (List.forall_mem_cons.2 ⟨hfirst name hname, hnewRest⟩)
      exact ⟨record', readFields_cons_eq_ok_iff.2
        ⟨name, hname, .inr ⟨field, update, hfield, hseen, hupdate, hread⟩⟩⟩

variable {r : Record S} {value value' given : Value} {es : Entries}

theorem read_eq_readFields (hes : value.untagged = .map es) :
    r.read value = readFields r.fields [] r.initial es := by
  unfold read
  rw [Codec.readEntries_of_untagged hes]
  rfl

theorem read_ok_iff (hes : value.untagged = .map es) :
    (∃ record, r.read value = .ok record) ↔ Readable r.fields es := by
  rw [read_eq_readFields hes]
  constructor
  · intro hok
    obtain ⟨record, hread⟩ := hok
    exact (readable_of_readFields hread).1
  · intro h
    exact exists_readFields r.initial h fun name hname => absurd hname List.not_mem_nil

variable {name : String} {read : Value → Except ReadError α} {get : S → α} {record : S}
  (howns : r.Owns name read get)
include howns

/-- A record whose field has a twin cannot be read once the field is set. -/
theorem Owns.read_insert_of_twin
    (hes' : value'.untagged = .map (es.insert (.text name) given))
    (htwin : es.hasTwin name = true) (record' : S) : r.read value' ≠ .ok record' := by
  intro hread
  obtain ⟨owner, howner, -⟩ := howns.sets
  have hreadable := (read_ok_iff hes').1 ⟨record', hread⟩
  obtain ⟨e, he, htwin⟩ := List.any_eq_true.1 htwin
  obtain ⟨hspelling, hne⟩ := Bool.and_eq_true_iff.1 htwin
  have hkey : e.1 ∈ (es.insert (.text name) given).map Prod.fst := by
    rw [Entries.keys_insert]
    split
    · exact List.mem_map_of_mem he
    · exact List.mem_append_left _ (List.mem_map_of_mem he)
  have htext : text name ∈ (es.insert (.text name) given).map Prod.fst := by
    rw [Entries.keys_insert]
    cases hfind : es.find? (.text name) with
    | none => simp
    | some present =>
      obtain ⟨key, hmem, hagrees⟩ := Entries.mem_of_find?_eq_some hfind
      obtain rfl := agrees_text_iff.1 hagrees
      exact List.mem_map_of_mem hmem
  have hdiffer : e.1 ≠ text name := by
    intro heq
    rw [heq, agrees_self] at hne
    cases hne
  have hnone := hreadable.find?_eq_none hkey htext hdiffer (of_decide_eq_true hspelling) rfl
  rw [howner] at hnone
  cases hnone

/-- Without a twin the field has what the entry of its text reads as. -/
theorem Owns.taken_find? (hes : value.untagged = .map es) (hread : r.read value = .ok record)
    (htwin : es.hasTwin name = false) :
    Taken read (es.find? (.text name)) (get r.initial) (get record) := by
  obtain ⟨owner, howner, -⟩ := howns.sets
  have honce := ((read_ok_iff hes).1 ⟨record, hread⟩).once
  rw [← Entries.spelled?_eq_find? htwin]
  · rw [read_eq_readFields hes] at hread
    exact howns.taken hread
  · refine List.Pairwise.imp ?_ (List.pairwise_map.1 honce)
    intro a b h ha hb
    rw [h name ha hb] at howner
    cases howner

theorem Owns.read_of_insert (hes' : value'.untagged = .map (es.insert (.text name) given))
    (htwin : es.hasTwin name = false) (hread : r.read value' = .ok record) :
    read given = .ok (get record) := by
  rw [read_eq_readFields hes'] at hread
  have htaken := howns.taken hread
  rw [Entries.spelled?_insert, Entries.isShadowed_eq_false_of_hasTwin htwin] at htaken
  exact htaken

/-- Without a twin the field can be set to whatever can be read for it. -/
theorem Owns.read_insert (hes : value.untagged = .map es)
    (hes' : value'.untagged = .map (es.insert (.text name) given))
    (htwin : es.hasTwin name = false) (hread : r.read value = .ok record) {a : α}
    (hgiven : read given = .ok a) : ∃ record', r.read value' = .ok record' ∧ get record' = a := by
  obtain ⟨owner, howner, hsets⟩ := howns.sets
  obtain ⟨hentries, honce⟩ := (read_ok_iff hes).1 ⟨record, hread⟩
  obtain ⟨record', hread'⟩ := (read_ok_iff hes').2 <| by
    constructor
    · refine Entries.forall_mem_insert (p := fun key value => EntryReadable r.fields (key, value))
        hentries ⟨name, rfl, fun field hfield => ?_⟩
      obtain rfl : owner = field := Option.some.inj (howner.symm.trans hfield)
      obtain ⟨update, hupdate, -⟩ := map_eq_ok_iff.1 ((hsets given record).symm.trans hgiven)
      exact ⟨update, hupdate⟩
    · rw [Entries.keys_insert]
      cases hfind : es.find? (.text name) with
      | some present => exact honce
      | none =>
        refine List.pairwise_append.2 ⟨honce, List.pairwise_singleton .., ?_⟩
        intro key hkey key' hkey' name' hname hname'
        obtain rfl := List.mem_singleton.1 hkey'
        obtain rfl : name = name' := Option.some.inj hname'
        obtain ⟨e, he, rfl⟩ := List.mem_map.1 hkey
        have hagrees := (Entries.spelling?_iff_of_not_twin
          (Entries.hasTwin_eq_false_iff.1 htwin e he)).1 hname
        rw [Entries.find?_eq_none_iff.1 hfind e he] at hagrees
        cases hagrees
  have hset := howns.read_of_insert hes' htwin hread'
  exact ⟨record', hread', Except.ok.inj (hset.symm.trans hgiven)⟩

end Record

end ServerManifests
