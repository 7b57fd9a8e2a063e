import ServerManifests.Proofs.Codec.Lens
import ServerManifests.Proofs.Codec.Order

/-!
Reading what was written. A codec rereads a value if it reads the written form of the
value as the value. A map that is read in the order of its names gets its entries back one
behind the other, and a record its fields; a field that was left out has what it had.
-/
namespace ServerManifests

open Yaml Value

variable {α S : Type}

theorem Yaml.Value.ofJson_ne_null {json : Json} (h : json ≠ .null) : Value.ofJson json ≠ .null := by
  cases json with
  | null => exact absurd rfl h
  | _ => exact fun heq => nomatch heq

namespace Codec

/-- What is written for a value is read as the value. -/
def Rereads (codec : Codec α) (a : α) : Prop := codec.read (.ofJson (codec.write a)) = .ok a

/-- Values that are written alike are the same. -/
theorem write_injective {codec : Codec α} (h : ∀ a, codec.Rereads a) :
    Function.Injective codec.write := by
  intro a b hwrite
  have ha : codec.read (.ofJson (codec.write b)) = .ok a := by
    rw [← hwrite]
    exact h a
  exact Except.ok.inj (ha.symm.trans (h b))

/-- Every value is read as it is written, and none is written as unset. -/
structure Lossless (codec : Codec α) : Prop where
  rereads : ∀ a, codec.Rereads a
  ne_null : ∀ a, codec.write a ≠ .null

theorem lossless_bool : bool.Lossless := ⟨fun _ => rfl, nofun⟩

theorem lossless_text : text.Lossless := ⟨fun _ => rfl, nofun⟩

theorem lossless_scalar : scalar.Lossless := ⟨fun _ => rfl, nofun⟩

theorem lossless_int32 : int32.Lossless where
  rereads n := by
    have hrange := And.intro (Int32.minValue_le_toInt n) (Int32.toInt_le n)
    change (if _ then Except.ok n.toInt else _).map Int32.ofInt = .ok n
    rw [if_pos hrange]
    exact congrArg Except.ok (Int32.ofInt_toInt n)
  ne_null := nofun

theorem lossless_uint32 : uint32.Lossless where
  rereads n := by
    have hrange : (0 : Int) ≤ n.toNat ∧ (n.toNat : Int) ≤ UInt32.size - 1 := by
      have := n.toNat_lt_size
      omega
    change (if _ then Except.ok (n.toNat : Int) else _).map _ = .ok n
    rw [if_pos hrange]
    exact congrArg Except.ok UInt32.ofNat_toNat
  ne_null := nofun

theorem lossless_choice {choice : Choice α}
    (h : ∀ member, choice.ofLabel (choice.label member) = .ok member) : choice.codec.Lossless :=
  ⟨h, nofun⟩

/-- An unset option is a null, which no value that is set may be written as. -/
theorem rereads_option {codec : Codec α} {found : Option α}
    (h : ∀ a ∈ found, codec.Rereads a ∧ codec.write a ≠ .null) : codec.option.Rereads found := by
  cases found with
  | none => rfl
  | some a =>
    obtain ⟨hread, hwrite⟩ := h a rfl
    change readOption codec.read (.ofJson (codec.write a)) = _
    rw [readOption_of_ne_null (ofJson_ne_null hwrite), hread]
    rfl

theorem Lossless.option {codec : Codec α} (h : codec.Lossless) (found : Option α) :
    codec.option.Rereads found :=
  rereads_option fun a _ => ⟨h.rereads a, h.ne_null a⟩

theorem mapM_ofJsonItems {read : Value → Except ReadError α} {write : α → Json} {items : List α}
    (h : ∀ a ∈ items, read (.ofJson (write a)) = .ok a) :
    (ofJsonItems (items.map write)).mapM read = .ok items := by
  induction items with
  | nil => rfl
  | cons a rest ih =>
    obtain ⟨ha, hrest⟩ := List.forall_mem_cons.1 h
    rw [List.map_cons, ofJsonItems, List.mapM_cons, ha, ih hrest]
    rfl

theorem rereads_list {codec : Codec α} {items : List α} (h : ∀ a ∈ items, codec.Rereads a) :
    (list codec).Rereads items := mapM_ofJsonItems h

/-- Entries in the order of their names come behind those that were read before. -/
theorem foldlM_mapStep_ofJsonMembers {read : Value → Except ReadError α} {write : α → Json}
    {rest : List (String × α)} {m : TextMap α}
    (hordered : (m.entries ++ rest).Pairwise fun a b => a.1 < b.1)
    (h : ∀ e ∈ rest, read (.ofJson (write e.2)) = .ok e.2) :
    (ofJsonMembers (rest.map fun e => (e.1, write e.2))).foldlM (mapStep read) m =
      .ok ⟨m.entries ++ rest, hordered⟩ := by
  induction rest generalizing m with
  | nil =>
    simp only [List.append_nil]
    rfl
  | cons e rest ih =>
    obtain ⟨hhead, hrest⟩ := List.forall_mem_cons.1 h
    have hlast : (m.insert e.1 e.2).entries = m.entries ++ [e] :=
      TextMap.place_of_lt fun before hbefore =>
        (List.pairwise_append.1 hordered).2.2 before hbefore e List.mem_cons_self
    have hordered' : ((m.insert e.1 e.2).entries ++ rest).Pairwise fun a b => a.1 < b.1 := by
      rw [hlast, List.append_assoc]
      exact hordered
    have hstep : mapStep read m (.text e.1, .ofJson (write e.2)) = .ok (m.insert e.1 e.2) :=
      mapStep_eq_ok_iff.2 ⟨e.1, e.2, rfl, hhead, rfl⟩
    rw [List.map_cons, ofJsonMembers, List.foldlM_cons, hstep]
    refine (ih hordered' hrest).trans (congrArg Except.ok ?_)
    simp only [hlast, List.append_assoc, List.singleton_append]

theorem readMap_ofJson {read : Value → Except ReadError α} {write : α → Json} {m : TextMap α}
    (h : ∀ e ∈ m.entries, read (.ofJson (write e.2)) = .ok e.2) :
    readMap read (.ofJson (.object (m.entries.map fun e => (e.1, write e.2)))) = .ok m :=
  readMap_eq_ok_iff.2 ⟨_, rfl, foldlM_mapStep_ofJsonMembers (m := {}) m.ordered h⟩

theorem rereads_textMap (m : TextMap String) : textMap.Rereads m := by
  have hread : readMap (readOption readScalar) (.ofJson (textMap.write m)) = .ok (m.map some) := by
    have hentries : readMap (readOption readScalar) (.ofJson (.object
        ((m.map some).entries.map fun e => (e.1, scalar.option.write e.2)))) = .ok (m.map some) :=
      readMap_ofJson fun e he => by
        rw [TextMap.entries_map] at he
        obtain ⟨given, -, rfl⟩ := List.mem_map.1 he
        rfl
    rwa [TextMap.entries_map, List.map_map] at hentries
  change (readMap _ _).map _ = _
  rw [hread]
  exact congrArg Except.ok (TextMap.filterMap_map_some m)

end Codec

namespace Setting

theorem eq_of_json {setting setting' : Setting} (h : setting.json = setting'.json) :
    setting = setting' := by
  cases setting
  cases setting'
  cases h
  rfl

theorem exists_items {items : List Json} (h : (Json.list items).Ordered) :
    ∃ settings : List Setting, settings.map (·.json) = items := by
  have hitems := (Json.orderedItems_iff items).1 h
  refine ⟨items.pmap (fun item hitem => ⟨item, hitem⟩) hitems, ?_⟩
  rw [List.map_pmap]
  exact List.pmap_eq_self.2 fun item hitem => rfl

theorem exists_members {members : List (String × Json)} (h : (Json.object members).Ordered) :
    ∃ settings : TextMap Setting, settings.entries.map (fun e => (e.1, e.2.json)) = members := by
  have hmembers := (Json.orderedMembers_iff members).1 h.2
  have hsame : (members.pmap (fun member hmember => (member.1, Setting.mk member.2 hmember))
      hmembers).map (fun e => (e.1, e.2.json)) = members := by
    rw [List.map_pmap]
    exact List.pmap_eq_self.2 fun member hmember => rfl
  have hordered := h.1
  rw [← hsame, List.pairwise_map] at hordered
  exact ⟨⟨_, hordered⟩, hsame⟩

end Setting

namespace Codec

mutual

/-- A setting of any shape is read as it is written. -/
theorem readSetting_ofJson (json : Json) (h : json.Ordered) :
    readSetting (.ofJson json) = .ok ⟨json, h⟩ := by
  cases json with
  | list items =>
    have hitems := readSetting_items items h
    obtain ⟨settings, rfl⟩ := Setting.exists_items h
    change (readSettingItems (ofJsonItems (settings.map (·.json)))).map Setting.list = _
    rw [readSettingItems_eq_mapM, mapM_ofJsonItems fun item hitem => hitems item
      (List.mem_map_of_mem hitem)]
    rfl
  | object members =>
    have hmembers := readSetting_members members h.2
    obtain ⟨settings, rfl⟩ := Setting.exists_members h
    have hread : readSettingEntries "a string key" {}
        (ofJsonMembers (settings.entries.map fun e => (e.1, e.2.json))) = .ok settings :=
      readSettingEntries_eq_ok_iff.2 (foldlM_mapStep_ofJsonMembers (m := {}) settings.ordered
        fun e he => hmembers e.1 e.2 (List.mem_map.2 ⟨e, he, rfl⟩))
    change (readSettingEntries _ _ (ofJsonMembers _)).map Setting.object = _
    rw [hread]
    rfl
  | _ => rfl

theorem readSetting_items (items : List Json) (h : Json.OrderedItems items) :
    ∀ setting : Setting, setting.json ∈ items →
      readSetting (.ofJson setting.json) = .ok setting := by
  cases items with
  | nil => exact fun setting hmem => nomatch hmem
  | cons first rest =>
    intro setting hmem
    rcases List.mem_cons.1 hmem with heq | hmem
    · have hjson : setting = ⟨first, h.1⟩ := Setting.eq_of_json heq
      rw [hjson]
      exact readSetting_ofJson first h.1
    · exact readSetting_items rest h.2 setting hmem

theorem readSetting_members (members : List (String × Json)) (h : Json.OrderedMembers members) :
    ∀ (name : String) (setting : Setting), (name, setting.json) ∈ members →
      readSetting (.ofJson setting.json) = .ok setting := by
  cases members with
  | nil => exact fun name setting hmem => nomatch hmem
  | cons first rest =>
    obtain ⟨first, json⟩ := first
    intro name setting hmem
    rcases List.mem_cons.1 hmem with heq | hmem
    · have hjson : setting = ⟨json, h.1⟩ := Setting.eq_of_json (congrArg Prod.snd heq)
      rw [hjson]
      exact readSetting_ofJson json h.1
    · exact readSetting_members rest h.2 name setting hmem

end

theorem rereads_settings (m : TextMap Setting) : settings.Rereads m :=
  readMap_ofJson fun e _ => readSetting_ofJson e.2.json e.2.ordered

end Codec

namespace Record

variable {r : Record S} {written : S}

/-- Reading the written fields back, one after the other, on top of a record. -/
inductive Restores (written : S) : List (Field S) → S → S → Prop
  | nil (record : S) : Restores written [] record record
  | given {field : Field S} {rest : List (Field S)} {record after : S} {json : Json}
      {update : S → S} (write : field.write written = some json)
      (read : field.read (.ofJson json) = .ok update)
      (others : Restores written rest (update record) after) :
      Restores written (field :: rest) record after
  | left {field : Field S} {rest : List (Field S)} {record after : S}
      (write : field.write written = none) (others : Restores written rest record after) :
      Restores written (field :: rest) record after

namespace Restores

variable {name description : String} {rest : List (Field S)} {record after : S}

theorem required {codec : Codec α} {get : S → α} {set : α → S → S} {a : α}
    (hread : codec.read (.ofJson (codec.write (get written))) = .ok a)
    (others : Restores written rest (set a record) after) :
    Restores written (.required name description codec get set :: rest) record after := by
  refine .given rfl ?_ others
  change (codec.read _).map set = _
  rw [hread]
  rfl

/-- An optional field has what was written, or what it had. -/
theorem kept {codec : Codec α} {get : S → Option α} {set : Option α → S → S}
    (hread : codec.option.Rereads (get written)) (hset : ∀ s, set (get s) s = s)
    (others : Restores written rest (set ((get written).or (get record)) record) after) :
    Restores written (.optional name description codec get set :: rest) record after := by
  cases hfound : get written with
  | none =>
    rw [hfound, Option.none_or, hset] at others
    refine .left ?_ others
    change (get written).map codec.write = none
    rw [hfound]
    rfl
  | some a =>
    rw [hfound] at hread others
    have hwritten : (get written).map codec.write = some (codec.write a) := by
      rw [hfound]
      rfl
    refine .given hwritten ?_ others
    change (codec.option.read (.ofJson (codec.option.write (some a)))).map set = _
    rw [hread]
    rfl

theorem optional {codec : Codec α} {get : S → Option α} {set : Option α → S → S}
    (hread : codec.option.Rereads (get written)) (hset : ∀ s, set (get s) s = s)
    (hunset : get record = none)
    (others : Restores written rest (set (get written) record) after) :
    Restores written (.optional name description codec get set :: rest) record after := by
  refine kept hread hset ?_
  rwa [hunset, Option.or_none]

theorem readFields {fields : List (Field S)} {seen : List String} (hlawful : r.Lawful)
    (hmem : ∀ field ∈ fields, field ∈ r.fields) (hnames : (fields.map (·.name)).Nodup)
    (hseen : ∀ field ∈ fields, field.name ∉ seen) (h : Restores written fields record after) :
    Record.readFields r.fields seen record (ofJsonMembers
      (fields.filterMap fun field => (field.write written).map (field.name, ·))) = .ok after := by
  induction h generalizing seen with
  | nil record => rfl
  | @given field rest record after json update write read others ih =>
    obtain ⟨hfield, hrest⟩ := List.forall_mem_cons.1 hmem
    obtain ⟨hfresh, hseen⟩ := List.forall_mem_cons.1 hseen
    obtain ⟨hnew, hnames⟩ := List.nodup_cons.1 hnames
    have hseen' : ∀ other ∈ rest, other.name ∉ field.name :: seen := by
      intro other hother hmem
      rcases List.mem_cons.1 hmem with heq | hmem
      · exact hnew (List.mem_map.2 ⟨other, hother, heq⟩)
      · exact hseen other hother hmem
    rw [List.filterMap_cons_some (by rw [write]; rfl), ofJsonMembers]
    exact readFields_cons_eq_ok_iff.2 ⟨field.name, rfl, .inr ⟨field, update,
      hlawful.find?_name hfield, hfresh, read, ih hrest hnames hseen'⟩⟩
  | @left field rest record after write others ih =>
    rw [List.filterMap_cons_none (by rw [write]; rfl)]
    exact ih (List.forall_mem_cons.1 hmem).2 (List.nodup_cons.1 hnames).2
      (List.forall_mem_cons.1 hseen).2

end Restores

theorem read_ofJson_write {after : S} (hlawful : r.Lawful)
    (h : Restores written r.fields r.initial after) :
    r.codec.read (.ofJson (r.codec.write written)) = .ok after :=
  h.readFields hlawful (fun _ hfield => hfield) hlawful.names fun _ _ => List.not_mem_nil

end Record

end ServerManifests
