import ServerManifests.Kubernetes.Pod
import ServerManifests.Proofs.Codec.Rereading

/-!
The written form of the blocks of a pod description. A block fits its shape if it has
fields of the shape only, in their order, each with what fits there, and all that are always
written. Reading gives blocks that fit and no others, and gives a block that fits back.
-/
namespace ServerManifests.Kubernetes.Shape

open Yaml Value Codec

mutual

/-- A block as a value of the shape is written. -/
inductive Fits : Shape → Json → Prop
  | text (s : String) : Fits .text (.text s)
  | bool (b : Bool) : Fits .bool (.bool b)
  | int32 {n : Int} (range : Int32.minValue.toInt ≤ n ∧ n ≤ Int32.maxValue.toInt) :
      Fits .int32 (.int n)
  | int64 {n : Int} (range : Int64.minValue.toInt ≤ n ∧ n ≤ Int64.maxValue.toInt) :
      Fits .int64 (.int n)
  | list {item : Shape} {items : List Json} (each : ∀ json ∈ items, Fits item json) :
      Fits (.list item) (.list items)
  | map {content : Shape} {members : List (String × Json)}
      (ordered : members.Pairwise fun a b => a.1 < b.1)
      (each : ∀ m ∈ members, Fits content m.2) : Fits (.map content) (.object members)
  | object {name : String} {fields : List (String × Bool × Shape)}
      {members : List (String × Json)} (each : FitsFields fields members) :
      Fits (.object name fields) (.object members)

/-- Members that have the names of the fields, in their order. A field may be left out
unless it is always written. -/
inductive FitsFields : List (String × Bool × Shape) → List (String × Json) → Prop
  | nil : FitsFields [] []
  | given {name : String} {always : Bool} {shape : Shape} {json : Json}
      {fields : List (String × Bool × Shape)} {members : List (String × Json)}
      (value : Fits shape json) (others : FitsFields fields members) :
      FitsFields ((name, always, shape) :: fields) ((name, json) :: members)
  | left {name : String} {shape : Shape} {fields : List (String × Bool × Shape)}
      {members : List (String × Json)} (others : FitsFields fields members) :
      FitsFields ((name, false, shape) :: fields) members

end

mutual

/-- Whether no block of a shape has two fields of one name. -/
def namesDiffer : Shape → Bool
  | .list item => item.namesDiffer
  | .map content => content.namesDiffer
  | .object _ fields => decide (fields.map Prod.fst).Nodup && namesDifferInFields fields
  | _ => true

def namesDifferInFields : List (String × Bool × Shape) → Bool
  | [] => true
  | (_, _, shape) :: rest => shape.namesDiffer && namesDifferInFields rest

end

theorem Fits.ne_null {shape : Shape} {json : Json} (h : shape.Fits json) : json ≠ .null := by
  cases h <;> exact fun heq => nomatch heq

variable {fields : List (String × Bool × Shape)} {members : List (String × Json)}

theorem FitsFields.keys (h : FitsFields fields members) :
    (members.map Prod.fst).Sublist (fields.map Prod.fst) := by
  induction fields generalizing members with
  | nil =>
    cases h
    exact .slnil
  | cons field rest ih =>
    cases h with
    | given value others => exact (ih others).cons_cons _
    | left others => exact (ih others).cons _

theorem lookup_eq_none_of_not_mem {es : List (String × Json)} {name : String}
    (h : name ∉ es.map Prod.fst) : es.lookup name = none := by
  rw [List.lookup_eq_none_iff]
  intro e he
  have hne : name ≠ e.1 := fun heq => h (heq ▸ List.mem_map_of_mem he)
  simpa using hne

/-- What was found under each name once the members of a block were read. -/
theorem foldlM_fieldStep_ofJsonMembers (hnames : (members.map Prod.fst).Nodup)
    (hread : ∀ m ∈ members, readField fields m.1 (.ofJson m.2) = .ok (some (some m.2)))
    (found : List (String × Option Json)) :
    ∃ found', (ofJsonMembers members).foldlM (fieldStep fields) found = .ok found' ∧
      ∀ name, found'.lookup name = ((members.lookup name).map some).or (found.lookup name) := by
  induction members generalizing found with
  | nil => exact ⟨found, rfl, fun name => rfl⟩
  | cons member rest ih =>
    obtain ⟨key, json⟩ := member
    obtain ⟨hhead, hrest⟩ := List.forall_mem_cons.1 hread
    obtain ⟨hnew, hnames⟩ := List.nodup_cons.1 hnames
    have hstep : fieldStep fields found (.text key, .ofJson json) =
        .ok ((key, some json) :: found) :=
      fieldStep_eq_ok_iff.2 ⟨key, _, rfl, hhead, rfl⟩
    obtain ⟨found', hfold, hfound⟩ := ih hnames hrest ((key, some json) :: found)
    refine ⟨found', ?_, fun name => ?_⟩
    · rw [ofJsonMembers, List.foldlM_cons, hstep]
      exact hfold
    · rw [hfound, TextMap.lookup_cons_eq, TextMap.lookup_cons_eq]
      by_cases hname : name = key
      · rw [hname, lookup_eq_none_of_not_mem hnew, if_pos rfl, if_pos rfl]
        rfl
      · rw [if_neg hname, if_neg hname]

/-- The fields that were found come in the order of the shape. -/
theorem FitsFields.arrange_eq (h : FitsFields fields members)
    (hnames : (fields.map Prod.fst).Nodup) {found : List (String × Option Json)}
    (hfound : ∀ name ∈ fields.map Prod.fst,
      found.lookup name = (members.lookup name).map some) : arrange found fields = members := by
  induction fields generalizing members with
  | nil =>
    cases h
    rfl
  | cons field rest ih =>
    obtain ⟨hnew, hdistinct⟩ := List.nodup_cons.1 hnames
    obtain ⟨hhead, hrest⟩ := List.forall_mem_cons.1 hfound
    cases h with
    | @given name always shape json _ members value others =>
      rw [List.lookup_cons_self] at hhead
      have hothers : arrange found rest = members := ih others hdistinct fun other hother => by
        have hne : other ≠ name := fun heq => hnew (heq ▸ hother)
        rw [hrest other hother, TextMap.lookup_cons_eq, if_neg hne]
      rw [arrange, hhead, hothers]
      rfl
    | @left name shape _ _ others =>
      have hnone : members.lookup name = none :=
        lookup_eq_none_of_not_mem fun hmem => hnew (others.keys.subset hmem)
      rw [arrange, hhead, hnone, ih others hdistinct hrest]
      rfl

mutual

/-- A block that fits is read as it is written. -/
theorem read_ofJson (shape : Shape) {json : Json} (h : shape.Fits json)
    (hnames : shape.namesDiffer = true) : shape.read (.ofJson json) = .ok json := by
  cases shape with
  | text =>
    cases h
    rfl
  | bool =>
    cases h
    rfl
  | int32 =>
    cases h with
    | int32 range =>
      change (if _ then Except.ok _ else _).map Json.int = _
      rw [if_pos range]
      rfl
  | int64 =>
    cases h with
    | int64 range =>
      change (if _ then Except.ok _ else _).map Json.int = _
      rw [if_pos range]
      rfl
  | list item =>
    cases h with
    | @list _ items each =>
      have hitems : (ofJsonItems (items.map id)).mapM item.read = .ok items :=
        mapM_ofJsonItems fun json hjson => read_ofJson item (each json hjson) hnames
      rw [List.map_id] at hitems
      change ((ofJsonItems items).mapM item.read >>= fun items => pure (Json.list items)) = _
      rw [hitems]
      rfl
  | map content =>
    cases h with
    | @map _ members ordered each =>
      have hmembers : readMap content.read
          (.ofJson (.object (members.map fun m => (m.1, id m.2)))) = .ok ⟨members, ordered⟩ :=
        readMap_ofJson (m := ⟨members, ordered⟩) fun m hm => read_ofJson content (each m hm) hnames
      have hsame : members.map (fun m => (m.1, id m.2)) = members := List.map_id members
      rw [hsame] at hmembers
      change (readMap content.read (.ofJson (.object members)) >>= fun entries =>
        pure (Json.object entries.entries)) = _
      rw [hmembers]
      rfl
  | object name fields =>
    obtain ⟨hnodup, hfields⟩ := Bool.and_eq_true_iff.1 hnames
    have hnodup := of_decide_eq_true hnodup
    cases h with
    | @object _ _ members each =>
      obtain ⟨found, hfold, hfound⟩ := foldlM_fieldStep_ofJsonMembers
        (each.keys.nodup hnodup) (readField_ofJson fields each hnodup hfields) []
      have harrange : arrange found fields = members := each.arrange_eq hnodup fun name _ => by
        rw [hfound name]
        exact Option.or_none
      rw [read]
      refine bind_eq_ok_iff.2 ⟨_, rfl, bind_eq_ok_iff.2 ⟨found, hfold, ?_⟩⟩
      rw [harrange]
      rfl

theorem readField_ofJson (fields : List (String × Bool × Shape))
    {members : List (String × Json)} (h : FitsFields fields members)
    (hnodup : (fields.map Prod.fst).Nodup) (hnames : namesDifferInFields fields = true) :
    ∀ m ∈ members, readField fields m.1 (.ofJson m.2) = .ok (some (some m.2)) := by
  cases fields with
  | nil =>
    cases h
    exact List.forall_mem_nil _
  | cons field rest =>
    obtain ⟨name, always, shape⟩ := field
    obtain ⟨hnew, hnodup⟩ := List.nodup_cons.1 hnodup
    obtain ⟨hshape, hnames⟩ := Bool.and_eq_true_iff.1 hnames
    -- A member of another field is not the one of this field, whose name is its own.
    have hothers (others : List (String × Json)) (h : FitsFields rest others) :
        ∀ m ∈ others, readField ((name, always, shape) :: rest) m.1 (.ofJson m.2) =
          .ok (some (some m.2)) := by
      intro m hm
      have hne : name ≠ m.1 := fun heq =>
        hnew (heq ▸ h.keys.subset (List.mem_map_of_mem hm))
      rw [readField, if_neg hne]
      exact readField_ofJson rest h hnodup hnames m hm
    cases h with
    | @given _ _ _ json _ members value others =>
      refine List.forall_mem_cons.2 ⟨?_, hothers members others⟩
      rw [readField, if_pos rfl, readOption_of_ne_null (ofJson_ne_null value.ne_null),
        read_ofJson shape value hshape]
      rfl
    | left others => exact hothers members others

end

mutual

theorem fits_blank (shape : Shape) : shape.Fits shape.blank := by
  cases shape with
  | text => exact .text ""
  | bool => exact .bool false
  | int32 => exact .int32 (by decide)
  | int64 => exact .int64 (by decide)
  | list item => exact .list (List.forall_mem_nil _)
  | map content => exact .map .nil (List.forall_mem_nil _)
  | object name fields => exact .object (fits_blankFields fields)

theorem fits_blankFields (fields : List (String × Bool × Shape)) :
    FitsFields fields (blankFields fields) := by
  cases fields with
  | nil => exact .nil
  | cons field rest =>
    obtain ⟨name, always, shape⟩ := field
    cases always with
    | true => exact .given (fits_blank shape) (fits_blankFields rest)
    | false => exact .left (fits_blankFields rest)

end

theorem fits_arrange {found : List (String × Option Json)}
    (h : ∀ field ∈ fields, ∀ json, found.lookup field.1 = some (some json) →
      field.2.2.Fits json) : FitsFields fields (arrange found fields) := by
  induction fields with
  | nil => exact .nil
  | cons field rest ih =>
    obtain ⟨name, always, shape⟩ := field
    obtain ⟨hhead, hrest⟩ := List.forall_mem_cons.1 h
    rw [arrange]
    split
    · next json hjson => exact .given (hhead json (Option.join_eq_some_iff.1 hjson)) (ih hrest)
    · cases always with
      | true => exact .given shape.fits_blank (ih hrest)
      | false => exact .left (ih hrest)

theorem readInt_range {low high n : Int} {expected : String} {value : Value}
    (h : readInt low high expected value = .ok n) : low ≤ n ∧ n ≤ high := by
  unfold readInt at h
  split at h
  · split at h
    · next hrange =>
      obtain rfl := Except.ok.inj h
      exact hrange
    · cases h
  · cases h

mutual

/-- What is read for a shape fits it. -/
theorem fits_of_read (shape : Shape) (hnames : shape.namesDiffer = true) {value : Value}
    {json : Json} (h : shape.read value = .ok json) : shape.Fits json := by
  cases shape with
  | text =>
    obtain ⟨s, -, rfl⟩ := map_eq_ok_iff.1 h
    exact .text s
  | bool =>
    obtain ⟨b, -, rfl⟩ := map_eq_ok_iff.1 h
    exact .bool b
  | int32 =>
    obtain ⟨n, hn, rfl⟩ := map_eq_ok_iff.1 h
    exact .int32 (readInt_range hn)
  | int64 =>
    obtain ⟨n, hn, rfl⟩ := map_eq_ok_iff.1 h
    exact .int64 (readInt_range hn)
  | list item =>
    rw [read] at h
    obtain ⟨values, -, h⟩ := bind_eq_ok_iff.1 h
    obtain ⟨items, hitems, hjson⟩ := bind_eq_ok_iff.1 h
    obtain rfl := Except.ok.inj hjson
    refine .list fun json hmem => ?_
    obtain ⟨value, -, hvalue⟩ := (mem_iff_of_mapM_eq_ok hitems).1 hmem
    exact fits_of_read item hnames hvalue
  | map content =>
    rw [read] at h
    obtain ⟨m, hm, hjson⟩ := bind_eq_ok_iff.1 h
    obtain rfl := Except.ok.inj hjson
    obtain ⟨es, -, hfold⟩ := readMap_eq_ok_iff.1 hm
    refine .map m.ordered (of_foldlM_eq_ok (p := fun m => ∀ e ∈ m.entries, content.Fits e.2) hfold
      (List.forall_mem_nil _) fun entry _ before after hbefore hstep e he => ?_)
    obtain ⟨key, json, -, hjson, rfl⟩ := mapStep_eq_ok_iff.1 hstep
    rcases TextMap.mem_place he with rfl | he
    · exact fits_of_read content hnames hjson
    · exact hbefore e he
  | object name fields =>
    obtain ⟨hnodup, hfields⟩ := Bool.and_eq_true_iff.1 hnames
    rw [read] at h
    obtain ⟨es, -, h⟩ := bind_eq_ok_iff.1 h
    obtain ⟨found, hfound, hjson⟩ := bind_eq_ok_iff.1 h
    obtain rfl := Except.ok.inj hjson
    refine .object (fits_arrange fun field hfield json hlookup => ?_)
    have htaken := taken_fieldStep (List.mem_map_of_mem hfield) hfound
    rw [hlookup] at htaken
    cases hgiven : es.spelled? field.1 with
    | none =>
      rw [hgiven] at htaken
      cases htaken
    | some value =>
      rw [hgiven] at htaken
      exact fits_of_readField fields (of_decide_eq_true hnodup) hfields field hfield htaken

theorem fits_of_readField (fields : List (String × Bool × Shape))
    (hnodup : (fields.map Prod.fst).Nodup) (hnames : namesDifferInFields fields = true) :
    ∀ field ∈ fields, ∀ {value : Value} {json : Json},
      readField fields field.1 value = .ok (some (some json)) → field.2.2.Fits json := by
  cases fields with
  | nil => exact List.forall_mem_nil _
  | cons first rest =>
    obtain ⟨name, always, shape⟩ := first
    obtain ⟨hnew, hnodup⟩ := List.nodup_cons.1 hnodup
    obtain ⟨hshape, hnames⟩ := Bool.and_eq_true_iff.1 hnames
    intro field hfield value json h
    rw [readField] at h
    rcases List.mem_cons.1 hfield with rfl | hfield
    · rw [if_pos rfl] at h
      obtain ⟨json?, hjson, hsome⟩ := map_eq_ok_iff.1 h
      obtain rfl := Option.some.inj hsome
      exact fits_of_read shape hshape (read_of_readOption hjson)
    · have hne : name ≠ field.1 := fun heq => hnew (List.mem_map.2 ⟨field, hfield, heq.symm⟩)
      rw [if_neg hne] at h
      exact fits_of_readField rest hnodup hnames field hfield h

end

/-- The blocks that fit a shape are those that can be read for it. -/
theorem fits_iff_exists_read {shape : Shape} (hnames : shape.namesDiffer = true) {json : Json} :
    shape.Fits json ↔ ∃ value, shape.read value = .ok json :=
  ⟨fun h => ⟨.ofJson json, read_ofJson shape h hnames⟩, fun ⟨_, h⟩ => fits_of_read shape hnames h⟩

section

variable {shape : Shape} (hnames : shape.namesDiffer = true)
include hnames

theorem forall_fits_of_option {found : Option Json}
    (h : ∀ json ∈ found, ∃ value, shape.codec.read value = .ok json) :
    ∀ json ∈ found, shape.Fits json :=
  fun json hjson => (fits_iff_exists_read hnames).2 (h json hjson)

theorem forall_fits_of_list {items : List Json}
    (h : ∃ value, shape.codec.list.read value = .ok items) : ∀ json ∈ items, shape.Fits json := by
  obtain ⟨value, hitems⟩ := h
  exact fun json hjson => (fits_iff_exists_read hnames).2 (exists_read_of_mem_list hitems hjson)

theorem rereads_codec {json : Json} (h : shape.Fits json) : shape.codec.Rereads json :=
  shape.read_ofJson h hnames

theorem rereads_codec_option {found : Option Json} (h : ∀ json ∈ found, shape.Fits json) :
    shape.codec.option.Rereads found :=
  rereads_option fun json hjson => ⟨rereads_codec hnames (h json hjson), (h json hjson).ne_null⟩

theorem rereads_codec_list {items : List Json} (h : ∀ json ∈ items, shape.Fits json) :
    shape.codec.list.Rereads items :=
  rereads_list fun json hjson => rereads_codec hnames (h json hjson)

end

end ServerManifests.Kubernetes.Shape
