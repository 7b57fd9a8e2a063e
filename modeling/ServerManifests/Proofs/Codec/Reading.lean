import ServerManifests.Codec.Record
import ServerManifests.Proofs.Success
import ServerManifests.Proofs.TextMap
import ServerManifests.Proofs.Yaml.Names

/-!
What maps and records take from a mapping. Both are read entry by entry under the
names that the keys spell. What a map has under a name, and what a record has in a
field, comes from the last entry of that name and from no other.
-/
namespace ServerManifests

open Yaml Value

variable {α S : Type}

/-- What is read under a name: the value given for it, or what was there. -/
def Taken (read : Value → Except ReadError α) (given : Option Value) (before after : α) : Prop :=
  match given with
  | none => after = before
  | some value => read value = .ok after

/-- One entry is read, then the rest. -/
theorem taken_cons {read : Value → Except ReadError α} {e : Value × Value} {rest : Entries}
    {name : String} {before between after : α}
    (hhead : Taken read (if e.1.spelling? = some name then some e.2 else none) before between)
    (hrest : Taken read (rest.spelled? name) between after) :
    Taken read (Entries.spelled? (e :: rest) name) before after := by
  rw [Entries.spelled?_cons]
  cases hspelled : rest.spelled? name with
  | none =>
    rw [hspelled] at hrest
    obtain rfl : after = between := hrest
    rwa [Option.none_or]
  | some value =>
    rw [hspelled] at hrest
    exact hrest

namespace Codec

theorem readText_eq_ok_iff {expected name : String} {key : Value} :
    readText expected key = .ok name ↔ key.spelling? = some name := by
  unfold readText Value.spelling?
  cases key.untagged <;> simp

theorem readEntries_eq_ok_iff {expected : String} {value : Value} {es : Entries} :
    readEntries expected value = .ok es ↔
      value.untagged = .map es ∨ (value.untagged = .null ∧ es = []) := by
  unfold readEntries
  cases value.untagged <;> simp [eq_comm]

theorem readOption_of_ne_null {read : Value → Except ReadError α} {value : Value}
    (h : value ≠ .null) : readOption read value = (read value).map some := by
  cases value with
  | null => exact absurd rfl h
  | _ => rfl

theorem read_of_readOption {read : Value → Except ReadError α} {value : Value} {a : α}
    (h : readOption read value = .ok (some a)) : read value = .ok a := by
  have hvalue : value ≠ .null := by
    rintro rfl
    cases h
  rw [readOption_of_ne_null hvalue] at h
  obtain ⟨_, hread, hsome⟩ := map_eq_ok_iff.1 h
  obtain rfl := Option.some.inj hsome
  exact hread

theorem exists_read_of_mem_list {codec : Codec α} {value : Value} {items : List α} {a : α}
    (h : (list codec).read value = .ok items) (ha : a ∈ items) :
    ∃ item, codec.read item = .ok a := by
  obtain ⟨values, -, hitems⟩ := bind_eq_ok_iff.1 h
  obtain ⟨item, -, hitem⟩ := (mem_iff_of_mapM_eq_ok hitems).1 ha
  exact ⟨item, hitem⟩

/-- Reads one entry of a map. -/
def mapStep (read : Value → Except ReadError α) (m : TextMap α) (e : Value × Value) :
    Except ReadError (TextMap α) := do
  let key ← readText "a string" e.1
  return m.insert key (← read e.2)

theorem readMap_eq_ok_iff {read : Value → Except ReadError α} {value : Value} {m : TextMap α} :
    readMap read value = .ok m ↔
      ∃ es, readEntries "a map" value = .ok es ∧ es.foldlM (mapStep read) {} = .ok m :=
  bind_eq_ok_iff

theorem mapStep_eq_ok_iff {read : Value → Except ReadError α} {m m' : TextMap α}
    {e : Value × Value} :
    mapStep read m e = .ok m' ↔
      ∃ key a, e.1.spelling? = some key ∧ read e.2 = .ok a ∧ m' = m.insert key a := by
  unfold mapStep
  rw [bind_eq_ok_iff]
  constructor
  · intro hstep
    obtain ⟨key, hkey, h⟩ := hstep
    obtain ⟨a, ha, h⟩ := bind_eq_ok_iff.1 h
    exact ⟨key, a, readText_eq_ok_iff.1 hkey, ha, (Except.ok.inj h).symm⟩
  · intro h
    obtain ⟨key, a, hkey, ha, rfl⟩ := h
    exact ⟨key, readText_eq_ok_iff.2 hkey, bind_eq_ok_iff.2 ⟨a, ha, rfl⟩⟩

theorem taken_mapStep {read : Value → Except ReadError α} {es : Entries} {m m' : TextMap α}
    (h : es.foldlM (mapStep read) m = .ok m') (name : String) :
    Taken (fun value => (read value).map some) (es.spelled? name) (m.get? name)
      (m'.get? name) := by
  induction es generalizing m with
  | nil =>
    obtain rfl := Except.ok.inj h
    rfl
  | cons e rest ih =>
    rw [List.foldlM_cons] at h
    obtain ⟨between, hhead, hrest⟩ := bind_eq_ok_iff.1 h
    obtain ⟨key, a, hkey, ha, rfl⟩ := mapStep_eq_ok_iff.1 hhead
    refine taken_cons ?_ (ih hrest)
    rw [TextMap.get?_insert, hkey]
    by_cases hname : key = name
    · subst hname
      rw [if_pos rfl, if_pos rfl]
      change (read e.2).map some = _
      rw [ha]
      rfl
    · have hne : ¬some key = some name := fun heq => hname (Option.some.inj heq)
      rw [if_neg hne, if_neg (Ne.symm hname)]
      rfl

/-- A text map has under a name what the last entry of the name reads as, and
nothing if that is a null. -/
theorem taken_textMap {value : Value} {m : TextMap String} (h : textMap.read value = .ok m) :
    ∃ es, readEntries "a map" value = .ok es ∧
      ∀ name, Taken (readOption readScalar) (es.spelled? name) none (m.get? name) := by
  obtain ⟨read, hread, rfl⟩ := map_eq_ok_iff.1 h
  obtain ⟨es, hes, hfold⟩ := readMap_eq_ok_iff.1 hread
  refine ⟨es, hes, fun name => ?_⟩
  have htaken := taken_mapStep hfold name
  rw [TextMap.get?_filterMap]
  cases hspelled : es.spelled? name with
  | none =>
    rw [hspelled] at htaken
    have hnone : read.get? name = none := htaken
    rw [hnone]
    rfl
  | some given =>
    rw [hspelled] at htaken
    obtain ⟨text, htext, hsome⟩ := map_eq_ok_iff.1 htaken
    rw [← hsome]
    exact htext

end Codec

namespace Field

/-- Reading the field does not change what `get` sees. -/
def Keeps (field : Field S) (get : S → α) : Prop :=
  ∀ value update, field.read value = .ok update → ∀ record, get (update record) = get record

/-- Reading the field sets what `get` sees to what `read` gives. -/
def Sets (field : Field S) (read : Value → Except ReadError α) (get : S → α) : Prop :=
  ∀ value record, read value = (field.read value).map fun update => get (update record)

@[simp]
theorem name_required (name description : String) (codec : Codec α) (get : S → α)
    (set : α → S → S) : (required name description codec get set).name = name := rfl

@[simp]
theorem name_optional (name description : String) (codec : Codec α) (get : S → Option α)
    (set : Option α → S → S) : (optional name description codec get set).name = name := rfl

theorem sets_required {name description : String} {codec : Codec α} {get : S → α}
    {set : α → S → S} (h : ∀ x record, get (set x record) = x) :
    (required name description codec get set).Sets codec.read get := by
  intro value record
  change codec.read value = ((codec.read value).map set).map _
  cases codec.read value with
  | error error => rfl
  | ok x => exact congrArg Except.ok (h x record).symm

theorem sets_optional {name description : String} {codec : Codec α} {get : S → Option α}
    {set : Option α → S → S} (h : ∀ x record, get (set x record) = x) :
    (optional name description codec get set).Sets codec.option.read get := by
  intro value record
  change codec.option.read value = ((codec.option.read value).map set).map _
  cases codec.option.read value with
  | error error => rfl
  | ok x => exact congrArg Except.ok (h x record).symm

/-- Reading the field keeps a property of the record. -/
def Preserves (field : Field S) (p : S → Prop) : Prop :=
  ∀ value update, field.read value = .ok update → ∀ record, p record → p (update record)

theorem preserves_required {name description : String} {codec : Codec α} {get : S → α}
    {set : α → S → S} {p : S → Prop}
    (h : ∀ a, (∃ value, codec.read value = .ok a) → ∀ record, p record → p (set a record)) :
    (required name description codec get set).Preserves p := by
  intro value update hread
  obtain ⟨a, ha, rfl⟩ := map_eq_ok_iff.1 hread
  exact h a ⟨value, ha⟩

theorem preserves_optional {name description : String} {codec : Codec α} {get : S → Option α}
    {set : Option α → S → S} {p : S → Prop}
    (h : ∀ found, (∀ a ∈ found, ∃ value, codec.read value = .ok a) →
      ∀ record, p record → p (set found record)) :
    (optional name description codec get set).Preserves p := by
  intro value update hread
  obtain ⟨found, hfound, rfl⟩ := map_eq_ok_iff.1 hread
  refine h found fun a ha => ⟨value, ?_⟩
  obtain rfl : found = some a := ha
  exact Codec.read_of_readOption hfound

end Field

namespace Record

/-- One field of a record, the one of that name, decides what `get` sees. -/
structure Owns (r : Record S) (name : String) (read : Value → Except ReadError α)
    (get : S → α) : Prop where
  sets : ∃ field, r.fields.find? (·.name = name) = some field ∧ field.Sets read get
  keeps : ∀ field ∈ r.fields, field.name ≠ name → field.Keeps get

theorem readFields_cons_eq_ok_iff {fields : List (Field S)} {seen : List String}
    {record record' : S} {e : Value × Value} {rest : Entries} :
    readFields fields seen record (e :: rest) = .ok record' ↔
      ∃ name, e.1.spelling? = some name ∧
        ((fields.find? (·.name = name) = none ∧
            readFields fields seen record rest = .ok record') ∨
          ∃ field update, fields.find? (·.name = name) = some field ∧ name ∉ seen ∧
            field.read e.2 = .ok update ∧
            readFields fields (name :: seen) (update record) rest = .ok record') := by
  rw [readFields, bind_eq_ok_iff]
  simp only [Codec.readText_eq_ok_iff]
  refine exists_congr fun name => and_congr_right fun _ => ?_
  cases hfind : fields.find? (·.name = name) with
  | none => simp
  | some field =>
    by_cases hseen : name ∈ seen
    · simp [hseen, throw, throwThe, MonadExceptOf.throw, bind, Except.bind]
    · simp [hseen, bind_eq_ok_iff]

/-- What every field keeps holds of the record that is read. -/
theorem of_readFields {fields : List (Field S)} {p : S → Prop}
    (hfields : ∀ field ∈ fields, field.Preserves p) {seen : List String} {record record' : S}
    {es : Entries} (start : p record) (h : readFields fields seen record es = .ok record') :
    p record' := by
  induction es generalizing seen record with
  | nil =>
    obtain rfl := Except.ok.inj h
    exact start
  | cons e rest ih =>
    obtain ⟨name, -, hcase⟩ := readFields_cons_eq_ok_iff.1 h
    rcases hcase with ⟨-, hrest⟩ | ⟨field, update, hfind, -, hread, hrest⟩
    · exact ih start hrest
    · have hkept := hfields field (List.mem_of_find?_eq_some hfind) e.2 update hread record start
      exact ih hkept hrest

/-- A field has what the last entry of its name reads as, or what it had. -/
theorem Owns.taken {r : Record S} {name : String} {read : Value → Except ReadError α}
    {get : S → α} (howns : r.Owns name read get) {seen : List String} {record record' : S}
    {es : Entries} (h : readFields r.fields seen record es = .ok record') :
    Taken read (es.spelled? name) (get record) (get record') := by
  induction es generalizing seen record with
  | nil =>
    obtain rfl := Except.ok.inj h
    rfl
  | cons e rest ih =>
    obtain ⟨spelled, hspelled, hcase⟩ := readFields_cons_eq_ok_iff.1 h
    rcases hcase with ⟨hnone, hrest⟩ | ⟨field, update, hfield, -, hread, hrest⟩
    · refine taken_cons ?_ (ih hrest)
      have hne : ¬e.1.spelling? = some name := by
        intro heq
        obtain ⟨owner, howner, -⟩ := howns.sets
        obtain rfl : spelled = name := Option.some.inj (hspelled.symm.trans heq)
        rw [howner] at hnone
        cases hnone
      rw [if_neg hne]
      rfl
    · refine taken_cons ?_ (ih hrest)
      by_cases heq : e.1.spelling? = some name
      · obtain rfl : spelled = name := Option.some.inj (hspelled.symm.trans heq)
        obtain ⟨owner, howner, hsets⟩ := howns.sets
        obtain rfl : owner = field := Option.some.inj (howner.symm.trans hfield)
        rw [if_pos heq]
        change read e.2 = _
        rw [hsets e.2 record, hread]
        rfl
      · have hname : field.name = spelled := by simpa using List.find?_some hfield
        have hne : field.name ≠ name := fun h => heq (by rw [hspelled, ← hname, h])
        rw [if_neg heq]
        exact howns.keeps field (List.mem_of_find?_eq_some hfield) hne e.2 update hread record

end Record

end ServerManifests
