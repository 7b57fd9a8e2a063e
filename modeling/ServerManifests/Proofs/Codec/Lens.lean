import ServerManifests.Proofs.Codec.Assignment

/-!
Fields as parts of a record that do not overlap. Such fields are read in any order
with one result, so what is read without the entry of a field is the record with
that field as it was at first, and what is read with another entry in its place
differs in that field only.
-/
namespace ServerManifests

open Yaml Value

variable {S T α β : Type}

/-- A part that can be seen and replaced. -/
structure Lens (S α : Type) where
  get : S → α
  set : α → S → S
  get_set : ∀ a s, get (set a s) = a := by intros; rfl
  set_get : ∀ s, set (get s) s = s := by intros; rfl
  set_set : ∀ a b s, set a (set b s) = set a s := by intros; rfl

namespace Lens

/-- A whole is a part of itself. -/
def whole : Lens S S where
  get s := s
  set s _ := s

/-- A part of a part. -/
def comp (outer : Lens S T) (inner : Lens T α) : Lens S α where
  get s := inner.get (outer.get s)
  set a s := outer.set (inner.set a (outer.get s)) s
  get_set a s := by rw [outer.get_set, inner.get_set]
  set_get s := by rw [inner.set_get, outer.set_get]
  set_set a b s := by rw [outer.get_set, outer.set_set, inner.set_set]

/-- A structure with the part of another one. -/
def copy (lens : Lens S α) (source target : S) : S := lens.set (lens.get source) target

end Lens

namespace Field

/-- What is read for the field is what its part is set to. -/
def ReadsTo (field : Field S) (read : Value → Except ReadError α) (lens : Lens S α) : Prop :=
  ∀ value, field.read value = (read value).map lens.set

/-- The part of a record that a field reads and writes. -/
structure Holds (field : Field S) (lens : Lens S α) : Prop where
  read : ∃ read, field.ReadsTo read lens
  write : ∃ write : α → Option Json, ∀ record, field.write record = write (lens.get record)

theorem Holds.exists_set {field : Field S} {lens : Lens S α} (h : field.Holds lens) {value : Value}
    {update : S → S} (hread : field.read value = .ok update) : ∃ a, update = lens.set a := by
  obtain ⟨read, hreads⟩ := h.read
  rw [hreads] at hread
  obtain ⟨a, -, rfl⟩ := map_eq_ok_iff.1 hread
  exact ⟨a, rfl⟩

/-- Reading the field leaves a part as it is, whatever is there. -/
def Avoids (field : Field S) (lens : Lens S α) : Prop :=
  ∀ value update, field.read value = .ok update →
    ∀ a record, update (lens.set a record) = lens.set a (update record)

theorem Avoids.get_eq {field : Field S} {lens : Lens S α} (h : field.Avoids lens) {value : Value}
    {update : S → S} (hread : field.read value = .ok update) (record : S) :
    lens.get (update record) = lens.get record :=
  calc
    lens.get (update record) = lens.get (update (lens.set (lens.get record) record)) := by
      rw [lens.set_get]
    _ = lens.get (lens.set (lens.get record) (update record)) := by rw [h value update hread]
    _ = lens.get record := lens.get_set ..

variable {name description : String} {lens : Lens S α}

@[simp]
theorem avoids_required {codec : Codec β} {get : S → β} {set : β → S → S}
    (h : ∀ b a record, set b (lens.set a record) = lens.set a (set b record)) :
    (required name description codec get set).Avoids lens := by
  intro value update hread a record
  obtain ⟨b, -, rfl⟩ := map_eq_ok_iff.1 hread
  exact h b a record

@[simp]
theorem avoids_optional {codec : Codec β} {get : S → Option β} {set : Option β → S → S}
    (h : ∀ b a record, set b (lens.set a record) = lens.set a (set b record)) :
    (optional name description codec get set).Avoids lens := by
  intro value update hread a record
  obtain ⟨b, -, rfl⟩ := map_eq_ok_iff.1 hread
  exact h b a record

/-- A field holds a part that no field of another name touches. -/
def IsPart (fields : List (Field S)) (field : Field S) : Prop :=
  ∃ (α : Type) (lens : Lens S α), field.Holds lens ∧
    ∀ other ∈ fields, other.name ≠ field.name → other.Avoids lens

@[simp]
theorem isPart_required {fields : List (Field S)} {codec : Codec α} {get : S → α}
    {set : α → S → S} (hget : ∀ a s, get (set a s) = a) (hset : ∀ s, set (get s) s = s)
    (hover : ∀ a b s, set a (set b s) = set a s)
    (hapart : ∀ other ∈ fields, other.name ≠ name →
      other.Avoids (⟨get, set, hget, hset, hover⟩ : Lens S α)) :
    IsPart fields (required name description codec get set) :=
  ⟨α, ⟨get, set, hget, hset, hover⟩,
    ⟨⟨codec.read, fun _ => rfl⟩, fun a => some (codec.write a), fun _ => rfl⟩, hapart⟩

@[simp]
theorem isPart_optional {fields : List (Field S)} {codec : Codec α} {get : S → Option α}
    {set : Option α → S → S} (hget : ∀ a s, get (set a s) = a) (hset : ∀ s, set (get s) s = s)
    (hover : ∀ a b s, set a (set b s) = set a s)
    (hapart : ∀ other ∈ fields, other.name ≠ name →
      other.Avoids (⟨get, set, hget, hset, hover⟩ : Lens S (Option α))) :
    IsPart fields (optional name description codec get set) :=
  ⟨Option α, ⟨get, set, hget, hset, hover⟩,
    ⟨⟨codec.option.read, fun _ => rfl⟩, fun a => a.map codec.write, fun _ => rfl⟩, hapart⟩

end Field

namespace Record

/-- A field holds a part of the record that no other field touches. -/
structure HasPart (r : Record S) (field : Field S) (lens : Lens S α) : Prop where
  mem : field ∈ r.fields
  holds : field.Holds lens
  apart : ∀ other ∈ r.fields, other.name ≠ field.name → other.Avoids lens

/-- Every field of a record has a part of its own, and a name of its own. -/
structure Lawful (r : Record S) : Prop where
  names : (r.fields.map (·.name)).Nodup
  named : ∀ field ∈ r.fields, field.name.isEmpty = false
  parts : ∀ field ∈ r.fields, field.IsPart r.fields

variable {r : Record S} {field : Field S} {lens : Lens S α} {es : Entries}

theorem Lawful.exists_hasPart (h : r.Lawful) (hfield : field ∈ r.fields) :
    ∃ (α : Type) (lens : Lens S α), r.HasPart field lens := by
  obtain ⟨α, lens, hholds, hapart⟩ := h.parts field hfield
  exact ⟨α, lens, hfield, hholds, hapart⟩

theorem Lawful.find?_name (h : r.Lawful) (hfield : field ∈ r.fields) :
    r.fields.find? (·.name = field.name) = some field := by
  obtain ⟨before, after, hsplit⟩ := List.append_of_mem hfield
  refine List.find?_eq_some_iff_append.2 ⟨by simp, before, after, hsplit, fun other hother => ?_⟩
  have hnames := h.names
  rw [hsplit, List.map_append, List.map_cons] at hnames
  have hne := (List.nodup_append.1 hnames).2.2 other.name (List.mem_map_of_mem hother) field.name
    List.mem_cons_self
  simpa using hne

/-- What an entry does to a record, if it is that of a field. -/
def apply (fields : List (Field S)) (record : S) (e : Value × Value) : S :=
  match e.1.spelling?.bind fun name => fields.find? (·.name = name) with
  | none => record
  | some field =>
    match field.read e.2 with
    | .ok update => update record
    | .error _ => record

theorem apply_of_find?_eq_none {fields : List (Field S)} {e : Value × Value} {name : String}
    (hname : e.1.spelling? = some name) (hnone : fields.find? (·.name = name) = none)
    (record : S) : apply fields record e = record := by
  unfold apply
  rw [hname, Option.bind_some, hnone]

theorem apply_of_find?_eq_some {fields : List (Field S)} {e : Value × Value} {name : String}
    {update : S → S} (hname : e.1.spelling? = some name)
    (hfield : fields.find? (·.name = name) = some field) (hread : field.read e.2 = .ok update)
    (record : S) : apply fields record e = update record := by
  unfold apply
  rw [hname, Option.bind_some, hfield]
  dsimp only
  rw [hread]

theorem readFields_eq_foldl {fields : List (Field S)} {seen : List String} {record record' : S}
    (h : readFields fields seen record es = .ok record') :
    record' = es.foldl (apply fields) record := by
  induction es generalizing seen record with
  | nil => exact (Except.ok.inj h).symm
  | cons e rest ih =>
    obtain ⟨name, hname, hcase⟩ := readFields_cons_eq_ok_iff.1 h
    rw [List.foldl_cons]
    rcases hcase with ⟨hnone, hrest⟩ | ⟨field, update, hfield, -, hread, hrest⟩
    · rw [apply_of_find?_eq_none hname hnone]
      exact ih hrest
    · rw [apply_of_find?_eq_some hname hfield hread]
      exact ih hrest

theorem readFields_eq_ok_iff {fields : List (Field S)} {record record' : S} :
    readFields fields [] record es = .ok record' ↔
      Readable fields es ∧ record' = es.foldl (apply fields) record := by
  constructor
  · intro h
    exact ⟨(readable_of_readFields h).1, readFields_eq_foldl h⟩
  · rintro ⟨hreadable, rfl⟩
    obtain ⟨record', hread⟩ := exists_readFields record hreadable fun name hname =>
      absurd hname List.not_mem_nil
    rw [hread, readFields_eq_foldl hread]

/-- An entry that can be read is that of no field or updates the record for its field. -/
theorem apply_cases {fields : List (Field S)} {e : Value × Value} (he : EntryReadable fields e) :
    (∀ record, apply fields record e = record) ∨
      ∃ field ∈ fields, fields.find? (·.name = field.name) = some field ∧
        e.1.spelling? = some field.name ∧
        ∃ update, field.read e.2 = .ok update ∧
          ∀ record, apply fields record e = update record := by
  obtain ⟨name, hname, hvalue⟩ := he
  cases hfield : fields.find? (·.name = name) with
  | none => exact .inl (apply_of_find?_eq_none hname hfield)
  | some field =>
    obtain ⟨update, hread⟩ := hvalue field hfield
    obtain rfl : field.name = name := by simpa using List.find?_some hfield
    exact .inr ⟨field, List.mem_of_find?_eq_some hfield, hfield, hname, update, hread,
      apply_of_find?_eq_some hname hfield hread⟩

/-- Entries of different fields can be read in any order. -/
theorem Lawful.apply_comm (h : r.Lawful) (hes : Readable r.fields es) {x y : Value × Value}
    (hx : x ∈ es) (hy : y ∈ es) (record : S) :
    apply r.fields (apply r.fields record x) y = apply r.fields (apply r.fields record y) x := by
  let Commute (x y : Value × Value) : Prop :=
    ∀ record, apply r.fields (apply r.fields record x) y =
      apply r.fields (apply r.fields record y) x
  have : Std.Symm Commute := ⟨fun x y hxy record => (hxy record).symm⟩
  have hpairs : es.Pairwise Commute := by
    refine List.Pairwise.imp_of_mem ?_ (List.pairwise_map.1 hes.once)
    intro x y hx hy honce record
    rcases apply_cases (hes.entries x hx) with hid | ⟨f, hf, hfind, hspelled, u, hu, happly⟩
    · rw [hid, hid]
    · rcases apply_cases (hes.entries y hy) with hid | ⟨g, hg, -, hspelled', v, hv, happly'⟩
      · rw [hid, hid]
      · have hne : g.name ≠ f.name := by
          intro heq
          have hnone := honce f.name hspelled (heq ▸ hspelled')
          rw [hfind] at hnone
          cases hnone
        obtain ⟨α, lens, hpart⟩ := h.exists_hasPart hf
        obtain ⟨a, rfl⟩ := hpart.holds.exists_set hu
        rw [happly, happly', happly', happly]
        exact hpart.apart g hg hne y.2 v hv a record
  exact hpairs.forall_of_forall (fun x _ record => rfl) hx hy record

theorem Readable.perm {fields : List (Field S)} {es es' : Entries} (h : Readable fields es)
    (hperm : es.Perm es') : Readable fields es' := by
  refine ⟨fun e he => h.entries e (hperm.mem_iff.2 he), ?_⟩
  refine ((hperm.map Prod.fst).pairwise_iff ?_).1 h.once
  intro a b hab name hb ha
  exact hab name ha hb

/-- The order of the entries does not matter. -/
theorem Lawful.readFields_perm (h : r.Lawful) {es es' : Entries} (hperm : es.Perm es')
    {record record' : S} (hread : readFields r.fields [] record es = .ok record') :
    readFields r.fields [] record es' = .ok record' := by
  obtain ⟨hreadable, rfl⟩ := readFields_eq_ok_iff.1 hread
  refine readFields_eq_ok_iff.2 ⟨hreadable.perm hperm, ?_⟩
  exact hperm.foldl_eq' (fun x hx y hy record => h.apply_comm hreadable hx hy record) record

/-- An entry that a lookup finds can be read last. -/
theorem Lawful.readFields_last (h : r.Lawful) {name : String} {value given : Value} {record : S}
    (hes : value.untagged = .map es) (hfind : es.find? (.text name) = some given)
    (hread : r.read value = .ok record) :
    es.Perm (es.remove (.text name) ++ [(.text name, given)]) ∧
      readFields r.fields [] r.initial (es.remove (.text name) ++ [(.text name, given)]) =
        .ok record := by
  obtain ⟨key, hkey, hperm⟩ := Entries.perm_of_find?_eq_some hfind
  obtain rfl := agrees_text_iff.1 hkey
  rw [read_eq_readFields hes] at hread
  exact ⟨hperm, h.readFields_perm hperm hread⟩

section

variable (hlawful : r.Lawful) (hpart : r.HasPart field lens)
include hlawful hpart

/-- Entries beside the one of the field leave its part as it is. -/
theorem HasPart.get_foldl {rest : Entries} {key value : Value}
    (hes : Readable r.fields (rest ++ [(key, value)])) (hkey : key.spelling? = some field.name)
    (record : S) : lens.get (rest.foldl (apply r.fields) record) = lens.get record := by
  have hfind := hlawful.find?_name hpart.mem
  have hkeep : ∀ e ∈ rest, ∀ record, lens.get (apply r.fields record e) = lens.get record := by
    intro e he record
    have hmem : e ∈ rest ++ [(key, value)] := List.mem_append_left _ he
    rcases apply_cases (hes.entries e hmem) with hid | ⟨g, hg, -, hspelled, v, hv, happly⟩
    · rw [hid]
    · have hne : g.name ≠ field.name := by
        intro heq
        have honce := (List.pairwise_append.1 (List.pairwise_map.1 hes.once)).2.2 e he _
          (List.mem_singleton_self _) field.name (heq ▸ hspelled) hkey
        rw [hfind] at honce
        cases honce
      rw [happly]
      exact (hpart.apart g hg hne).get_eq hv record
  clear hes
  induction rest generalizing record with
  | nil => rfl
  | cons e rest ih =>
    obtain ⟨hhead, hrest⟩ := List.forall_mem_cons.1 hkeep
    rw [List.foldl_cons, ih _ hrest, hhead]

/-- With the entry of a field at the end, the record is what the others give with
that field's part set. -/
theorem HasPart.readFields_append {rest : Entries} {key value : Value} {record : S}
    (hkey : key.spelling? = some field.name)
    (hread : readFields r.fields [] r.initial (rest ++ [(key, value)]) = .ok record) :
    ∃ a before, field.read value = .ok (lens.set a) ∧
      readFields r.fields [] r.initial rest = .ok before ∧
      lens.get before = lens.get r.initial ∧ record = lens.set a before := by
  obtain ⟨hreadable, rfl⟩ := readFields_eq_ok_iff.1 hread
  have hfind := hlawful.find?_name hpart.mem
  obtain ⟨name, hname, hvalue⟩ := hreadable.entries (key, value) (by simp)
  obtain rfl : name = field.name := Option.some.inj (hname.symm.trans hkey)
  obtain ⟨update, hupdate⟩ := hvalue field hfind
  obtain ⟨a, rfl⟩ := hpart.holds.exists_set hupdate
  refine ⟨a, rest.foldl (apply r.fields) r.initial, hupdate, ?_, ?_, ?_⟩
  · refine readFields_eq_ok_iff.2 ⟨?_, rfl⟩
    refine ⟨fun e he => hreadable.entries e (List.mem_append_left _ he), ?_⟩
    have honce := hreadable.once
    rw [List.map_append] at honce
    exact (List.pairwise_append.1 honce).1
  · exact hpart.get_foldl hlawful hreadable hkey r.initial
  · rw [List.foldl_append, List.foldl_cons, List.foldl_nil]
    exact apply_of_find?_eq_some hkey hfind hupdate _

/-- Another value for the field sets its part to something else. -/
theorem HasPart.readFields_append_of_read {rest : Entries} {key value value' : Value}
    {record : S} {a : α} (hkey : key.spelling? = some field.name)
    (hread : readFields r.fields [] r.initial (rest ++ [(key, value)]) = .ok record)
    (hvalue : field.read value' = .ok (lens.set a)) :
    readFields r.fields [] r.initial (rest ++ [(key, value')]) = .ok (lens.set a record) := by
  obtain ⟨b, before, -, hbefore, -, rfl⟩ := hpart.readFields_append hlawful hkey hread
  have hreadable := (readFields_eq_ok_iff.1 hread).1
  have hfind := hlawful.find?_name hpart.mem
  obtain ⟨-, rfl⟩ := readFields_eq_ok_iff.1 hbefore
  refine readFields_eq_ok_iff.2 ⟨⟨?_, ?_⟩, ?_⟩
  · intro e he
    rcases List.mem_append.1 he with he | he
    · exact hreadable.entries e (List.mem_append_left _ he)
    · obtain rfl := List.mem_singleton.1 he
      refine ⟨field.name, hkey, fun field' hfield' => ?_⟩
      obtain rfl : field = field' := Option.some.inj (hfind.symm.trans hfield')
      exact ⟨_, hvalue⟩
  · have honce := hreadable.once
    rw [List.map_append] at honce ⊢
    exact honce
  · rw [List.foldl_append, List.foldl_cons, List.foldl_nil, lens.set_set]
    exact (apply_of_find?_eq_some hkey hfind hvalue _).symm

variable {value value' given : Value} {record : S}
  (hes : value.untagged = .map es) (hfind : es.find? (.text field.name) = some given)
  (hread : r.read value = .ok record)
include hes hfind hread

/-- Without the entry of a field the record has that part as it is at first. -/
theorem HasPart.read_remove (hes' : value'.untagged = .map (es.remove (.text field.name))) :
    r.read value' = .ok (lens.copy r.initial record) := by
  obtain ⟨-, hlast⟩ := hlawful.readFields_last hes hfind hread
  obtain ⟨a, before, -, hbefore, hget, rfl⟩ := hpart.readFields_append hlawful rfl hlast
  have hcopy : lens.copy r.initial (lens.set a before) = before := by
    unfold Lens.copy
    rw [lens.set_set, ← hget, lens.set_get]
  rw [read_eq_readFields hes', hcopy]
  exact hbefore

theorem HasPart.read_given : field.read given = .ok (lens.set (lens.get record)) := by
  obtain ⟨-, hlast⟩ := hlawful.readFields_last hes hfind hread
  obtain ⟨a, before, hvalue, -, -, rfl⟩ := hpart.readFields_append hlawful rfl hlast
  rw [lens.get_set]
  exact hvalue

/-- With another value in the entry of a field the record has another part there. -/
theorem HasPart.read_replace {given' : Value} {a : α}
    (hgiven : field.read given' = .ok (lens.set a))
    (hes' : value'.untagged = .map (es.replace (.text field.name) given')) :
    r.read value' = .ok (lens.set a record) := by
  obtain ⟨hperm, hlast⟩ := hlawful.readFields_last hes hfind hread
  have honce : ∀ e ∈ es.remove (.text field.name), e.1.agrees (.text field.name) = false := by
    intro e he
    rw [← Bool.not_eq_true]
    intro hagrees
    have hreadable := (readFields_eq_ok_iff.1 hlast).1
    have hnone := (List.pairwise_append.1 (List.pairwise_map.1 hreadable.once)).2.2 e he _
      (List.mem_singleton_self _) field.name (by rw [agrees_text_iff.1 hagrees]; rfl) rfl
    rw [hlawful.find?_name hpart.mem] at hnone
    cases hnone
  rw [read_eq_readFields hes']
  refine hlawful.readFields_perm (Entries.replace_perm hperm (agrees_self _) honce).symm ?_
  exact hpart.readFields_append_of_read hlawful rfl hlast hgiven

end

/-- A field of a record that holds another record as its part. -/
structure Embeds (outer : Record S) (name : String) (inner : Record T) (lens : Lens S T) :
    Prop where
  field : ∃ field, outer.fields.find? (·.name = name) = some field ∧ field.Holds lens ∧
    field.ReadsTo inner.read lens
  apart : ∀ other ∈ outer.fields, other.name ≠ name → other.Avoids lens

theorem embeds_of_required {outer : Record S} {name description : String} {inner : Record T}
    {lens : Lens S T}
    (hfind : outer.fields.find? (·.name = name) =
      some (.required name description inner.codec lens.get lens.set))
    (hapart : ∀ other ∈ outer.fields, other.name ≠ name → other.Avoids lens) :
    outer.Embeds name inner lens where
  field := ⟨_, hfind, ⟨⟨inner.read, fun _ => rfl⟩, fun part => some (inner.write part),
    fun _ => rfl⟩, fun _ => rfl⟩
  apart := hapart

theorem Embeds.exists_hasPart {outer : Record S} {name : String} {inner : Record T}
    {lens : Lens S T} (h : outer.Embeds name inner lens) :
    ∃ field, field.name = name ∧ outer.HasPart field lens ∧ field.ReadsTo inner.read lens := by
  obtain ⟨field, hfind, hholds, hreads⟩ := h.field
  obtain rfl : field.name = name := by simpa using List.find?_some hfind
  exact ⟨field, rfl, ⟨List.mem_of_find?_eq_some hfind, hholds, h.apart⟩, hreads⟩

/-- The entry of an embedded record reads as that part of the whole. -/
theorem Embeds.read_given {outer : Record S} {name : String} {inner : Record T} {lens : Lens S T}
    (h : outer.Embeds name inner lens) (hlawful : outer.Lawful) {value given : Value} {record : S}
    (hes : value.untagged = .map es) (hfind : es.find? (.text name) = some given)
    (hread : outer.read value = .ok record) : inner.read given = .ok (lens.get record) := by
  obtain ⟨field, rfl, hpart, hreads⟩ := h.exists_hasPart
  have hgiven := hpart.read_given hlawful hes hfind hread
  rw [hreads] at hgiven
  obtain ⟨part, hinner, heq⟩ := map_eq_ok_iff.1 hgiven
  have hpart : part = lens.get record :=
    calc
      part = lens.get (lens.set part record) := (lens.get_set ..).symm
      _ = lens.get (lens.set (lens.get record) record) := by rw [heq]
      _ = lens.get record := lens.get_set ..
  rw [hinner, hpart]

/-- A field with a part of its own decides what is seen there. -/
theorem HasPart.exists_owns (hlawful : r.Lawful) (hpart : r.HasPart field lens) :
    ∃ read, r.Owns field.name read lens.get := by
  obtain ⟨read, hreads⟩ := hpart.holds.read
  refine ⟨read, ⟨field, hlawful.find?_name hpart.mem, fun value record => ?_⟩, ?_⟩
  · rw [hreads]
    cases read value with
    | error error => rfl
    | ok a => exact congrArg Except.ok (lens.get_set a record).symm
  · intro other hother hne value update hupdate record
    exact (hpart.apart other hother hne).get_eq hupdate record

/-- The other fields leave what is written for a field as it is. -/
theorem HasPart.write_eq (hpart : r.HasPart field lens) {other : Field S}
    (hother : other ∈ r.fields) (hne : other.name ≠ field.name) {value : Value} {update : S → S}
    (hread : other.read value = .ok update) (record : S) :
    field.write (update record) = field.write record := by
  obtain ⟨write, hwrite⟩ := hpart.holds.write
  rw [hwrite, hwrite, (hpart.apart other hother hne).get_eq hread]

/-- A field decides what it writes, and so all that can be told from it. -/
theorem Lawful.owns (hlawful : r.Lawful) {name : String} {read : Value → Except ReadError α}
    {get : S → α} (hfind : r.fields.find? (·.name = name) = some field)
    (hsets : field.Sets read get)
    (hwrite : ∀ record record', field.write record = field.write record' →
      get record = get record') :
    r.Owns name read get where
  sets := ⟨field, hfind, hsets⟩
  keeps := by
    intro other hother hne value update hread record
    obtain rfl : field.name = name := by simpa using List.find?_some hfind
    obtain ⟨α, lens, hpart⟩ := hlawful.exists_hasPart (List.mem_of_find?_eq_some hfind)
    exact hwrite _ _ (hpart.write_eq hother hne hread record)

theorem Lawful.owns_required (hlawful : r.Lawful) {name description : String} {codec : Codec α}
    {get : S → α} {set : α → S → S} (hwrite : Function.Injective codec.write)
    (hfind : r.fields.find? (·.name = name) = some (.required name description codec get set))
    (hget : ∀ a record, get (set a record) = a) : r.Owns name codec.read get :=
  hlawful.owns hfind (Field.sets_required hget) fun _ _ heq => hwrite (Option.some.inj heq)

theorem Lawful.owns_optional (hlawful : r.Lawful) {name description : String} {codec : Codec α}
    {get : S → Option α} {set : Option α → S → S} (hwrite : Function.Injective codec.write)
    (hfind : r.fields.find? (·.name = name) = some (.optional name description codec get set))
    (hget : ∀ found record, get (set found record) = found) :
    r.Owns name codec.option.read get :=
  hlawful.owns hfind (Field.sets_optional hget) fun _ _ heq => Option.map_injective hwrite heq

/-- The field of an embedded record decides that part of the whole. -/
theorem Embeds.owns {outer : Record S} {name : String} {inner : Record T} {lens : Lens S T}
    (h : outer.Embeds name inner lens) : outer.Owns name inner.read lens.get where
  sets := by
    obtain ⟨field, hfind, -, hreads⟩ := h.field
    refine ⟨field, hfind, fun value record => ?_⟩
    rw [hreads]
    cases inner.read value with
    | error error => rfl
    | ok part => exact congrArg Except.ok (lens.get_set part record).symm
  keeps := fun other hother hne _ _ hread => (h.apart other hother hne).get_eq hread

/-- Two mappings that have the same at a field read the same for it, whatever else
is in them. -/
theorem HasPart.get_eq_of_find? (hlawful : r.Lawful) (hpart : r.HasPart field lens)
    {value value' : Value} {es' : Entries} {record record' : S}
    (hes : value.untagged = .map es) (hes' : value'.untagged = .map es')
    (hread : r.read value = .ok record) (hread' : r.read value' = .ok record')
    (htwin : es.hasTwin field.name = false) (htwin' : es'.hasTwin field.name = false)
    (hfind : es.find? (.text field.name) = es'.find? (.text field.name)) :
    lens.get record = lens.get record' := by
  obtain ⟨read, howns⟩ := hpart.exists_owns hlawful
  have htaken := howns.taken_find? hes hread htwin
  have htaken' := howns.taken_find? hes' hread' htwin'
  rw [hfind] at htaken
  cases hgiven : Entries.find? es' (.text field.name) with
  | none =>
    rw [hgiven] at htaken htaken'
    exact htaken.trans htaken'.symm
  | some given =>
    rw [hgiven] at htaken htaken'
    exact Except.ok.inj (htaken.symm.trans htaken')

end Record

end ServerManifests
