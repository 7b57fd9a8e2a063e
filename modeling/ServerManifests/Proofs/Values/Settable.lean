import ServerManifests.Proofs.Codec.Assignment
import ServerManifests.Proofs.Values.Override

/-!
What an override does to a value that was read. An accepted override of a field, or of
an entry of a map, that could be read changes what is seen of it to what the new scalar
gives, except where twins of the names on the path stand in the way.
-/
namespace ServerManifests.Values

open Codec Yaml Value

/-- What stands in the way of an override. -/
inductive Obstacle where
  | none
  /-- A twin of a field, which is then given twice. -/
  | repeatedField
  /-- A twin of an entry that comes after it and is read in its place. -/
  | shadowedEntry
  deriving DecidableEq

/-- The first obstacle on a path through records, and maybe to an entry of a map. -/
def obstacle : (fields : List String) → (key? : Option String) → Value → Obstacle
  | [], none, _ => .none
  | [], some name, value =>
    match value.untagged with
    | .map es => if Entries.isShadowed es name then .shadowedEntry else .none
    | _ => .none
  | name :: rest, key?, value =>
    match value.untagged with
    | .map es =>
      if Entries.hasTwin es name then .repeatedField
      else obstacle rest key? ((Entries.find? es (.text name)).getD (.map []))
    | _ => .none

variable {α β S : Type}

/-- What reading gives after an override, from what was seen before. -/
def Outcome (read : Value → Except ReadError α) (see : α → Option β) (before : Option β)
    (given : β) (value : Value) : Obstacle → Prop
  | .none => ∃ a, read value = .ok a ∧ see a = some given
  | .shadowedEntry => ∃ a, read value = .ok a ∧ see a = before
  | .repeatedField => ∀ a, read value ≠ .ok a

/-- Every accepted override of a value that could be read, by a scalar that gives
something to be seen, has its outcome. -/
def Settable (Gives : Value → β → Prop) (read : Value → Except ReadError α)
    (fields : List String) (key? : Option String) (see : α → Option β) : Prop :=
  ∀ value value' a scalar given, read value = .ok a → Gives scalar given →
    assignAt? scalar (fields ++ key?.toList) value = some value' →
    Outcome read see (see a) given value' (obstacle fields key? value)

/-- What can be read after an accepted override, whether or not it could be before, is
seen to be what the scalar gives unless a twin comes after it. -/
def Shown (Gives : Value → β → Prop) (read : Value → Except ReadError α)
    (fields : List String) (key? : Option String) (see : α → Option β) : Prop :=
  ∀ value value' a scalar given, Gives scalar given →
    assignAt? scalar (fields ++ key?.toList) value = some value' → read value' = .ok a →
    obstacle fields key? value ≠ .shadowedEntry → see a = some given

theorem obstacle_entry {value : Value} {es : Entries} {name : String}
    (hes : value.untagged = .map es) :
    obstacle [] (some name) value = if es.isShadowed name then .shadowedEntry else .none := by
  unfold obstacle
  rw [hes]

theorem assignAt?_singleton {scalar value value' : Value} {name : String}
    (hscalar : scalar.isNull = false) (h : assignAt? scalar [name] value = some value') :
    ∃ es : Entries, value.untagged = .map es ∧
      value'.untagged = .map (es.insert (.text name) scalar) := by
  obtain ⟨es, es', hes, hchange, hes'⟩ := withEntries?_eq_some h
  obtain rfl := Option.some.inj hchange
  rw [Entries.assign_eq_insert hscalar] at hes'
  exact ⟨es, hes, hes'⟩

theorem assignAt?_cons {scalar value value' : Value} {name : String} {rest : List String}
    (hrest : rest ≠ []) (h : assignAt? scalar (name :: rest) value = some value') :
    ∃ (es : Entries) (child' : Value), value.untagged = .map es ∧
      assignAt? scalar rest ((es.find? (.text name)).getD (.map [])) = some child' ∧
      value'.untagged = .map (es.insert (.text name) child') := by
  cases rest with
  | nil => exact absurd rfl hrest
  | cons next rest =>
    obtain ⟨es, es', hes, hchange, hes'⟩ := withEntries?_eq_some h
    obtain ⟨child', hassign, rfl⟩ := Option.map_eq_some_iff.1 hchange
    exact ⟨es, child', hes, hassign, hes'⟩

variable {Gives : Value → β → Prop}
  (hnull : ∀ scalar given, Gives scalar given → scalar.isNull = false)

include hnull in
/-- An entry of a map that is read entry by entry. -/
theorem settable_entry {read : Value → Except ReadError (TextMap β)} {name : String}
    (hinsert : ∀ (value value' scalar : Value) (es : Entries) (m : TextMap β) (given : β),
      value.untagged = .map es → value'.untagged = .map (es.insert (.text name) scalar) →
      read value = .ok m → Gives scalar given →
      ∃ m', read value' = .ok m' ∧
        m'.get? name = if es.isShadowed name then m.get? name else some given) :
    Settable Gives read [] (some name) (·.get? name) := by
  intro value value' m scalar given hread hgives hassign
  obtain ⟨es, hes, hes'⟩ := assignAt?_singleton (hnull scalar given hgives) hassign
  obtain ⟨m', hread', hget⟩ := hinsert _ _ _ es m given hes hes' hread hgives
  rw [obstacle_entry hes]
  by_cases hshadowed : es.isShadowed name
  · rw [if_pos hshadowed] at hget ⊢
    exact ⟨m', hread', hget⟩
  · rw [if_neg hshadowed] at hget ⊢
    exact ⟨m', hread', hget⟩

include hnull in
theorem shown_entry {read : Value → Except ReadError β} {name : String}
    (hread : ∀ scalar given, Gives scalar given → read scalar = .ok given) :
    Shown Gives (readMap read) [] (some name) (·.get? name) := by
  intro value value' m scalar given hgives hassign hread' hobstacle
  obtain ⟨es, hes, hes'⟩ := assignAt?_singleton (hnull scalar given hgives) hassign
  rw [obstacle_entry hes] at hobstacle
  have hplain : ¬es.isShadowed name := by
    intro hshadowed
    exact hobstacle (if_pos hshadowed)
  have htaken := taken_readMap hes' hread' name
  rw [Entries.spelled?_insert, if_neg hplain] at htaken
  have hsome : (read scalar).map some = .ok (m.get? name) := htaken
  rw [hread scalar given hgives] at hsome
  exact (Except.ok.inj hsome).symm

variable {r : Record S} {name : String} {read : Value → Except ReadError α} {get : S → α}
  {see : α → Option β} (howns : r.Owns name read get)
include howns

/-- What comes of a value that is set in a field comes of the record. -/
theorem outcome_insert {value value' child : Value} {es : Entries} {record : S}
    {before : Option β} {given : β} {obstacle : Obstacle} (hes : value.untagged = .map es)
    (hes' : value'.untagged = .map (es.insert (.text name) child))
    (htwin : es.hasTwin name = false) (hread : r.read value = .ok record)
    (h : Outcome read see before given child obstacle) :
    Outcome r.read (fun record => see (get record)) before given value' obstacle := by
  cases obstacle with
  | none =>
    obtain ⟨a, ha, hsee⟩ := h
    obtain ⟨record', hread', rfl⟩ := howns.read_insert hes hes' htwin hread ha
    exact ⟨record', hread', hsee⟩
  | shadowedEntry =>
    obtain ⟨a, ha, hsee⟩ := h
    obtain ⟨record', hread', rfl⟩ := howns.read_insert hes hes' htwin hread ha
    exact ⟨record', hread', hsee⟩
  | repeatedField =>
    intro record' hread'
    exact h _ (howns.read_of_insert hes' htwin hread')

include hnull in
/-- A field of a record that is seen itself. -/
theorem settable_scalar
    (hscalar : ∀ scalar given, Gives scalar given →
      ∃ a, read scalar = .ok a ∧ see a = some given) :
    Settable Gives r.read [name] none (fun record => see (get record)) := by
  intro value value' record scalar given hread hgives hassign
  obtain ⟨es, hes, hes'⟩ := assignAt?_singleton (hnull scalar given hgives) hassign
  unfold obstacle
  rw [hes]
  dsimp only
  by_cases htwin : es.hasTwin name
  · rw [if_pos htwin]
    exact howns.read_insert_of_twin hes' htwin
  · rw [if_neg htwin]
    exact outcome_insert howns hes hes' (Bool.eq_false_iff.2 htwin) hread
      (hscalar scalar given hgives)

/-- A field of a record of which some part is seen. A part that is not there is made
from nothing, and must then be seen as it is at first. -/
theorem settable_field {fields : List String} {key? : Option String}
    (hinner : Settable Gives read fields key? see) (hpath : fields ++ key?.toList ≠ [])
    (hempty : ∃ a, read (.map []) = .ok a ∧ see a = see (get r.initial)) :
    Settable Gives r.read (name :: fields) key? (fun record => see (get record)) := by
  intro value value' record scalar given hread hgives hassign
  obtain ⟨es, child', hes, hchild, hes'⟩ := assignAt?_cons hpath hassign
  unfold obstacle
  rw [hes]
  dsimp only
  by_cases htwin : es.hasTwin name
  · rw [if_pos htwin]
    exact howns.read_insert_of_twin hes' htwin
  · rw [if_neg htwin]
    have hplain := Bool.eq_false_iff.2 htwin
    obtain ⟨a, hpresent, hsee⟩ : ∃ a,
        read ((es.find? (.text name)).getD (.map [])) = .ok a ∧ see a = see (get record) := by
      have htaken := howns.taken_find? hes hread hplain
      cases hfind : es.find? (.text name) with
      | none =>
        rw [hfind] at htaken
        have hinitial : get record = get r.initial := htaken
        rw [hinitial]
        exact hempty
      | some present =>
        rw [hfind] at htaken
        exact ⟨_, htaken, rfl⟩
    have houtcome := hinner _ child' a scalar given hpresent hgives hchild
    rw [hsee] at houtcome
    exact outcome_insert howns hes hes' hplain hread houtcome

theorem shown_field {fields : List String} {key? : Option String}
    (hinner : Shown Gives read fields key? see) (hpath : fields ++ key?.toList ≠ []) :
    Shown Gives r.read (name :: fields) key? (fun record => see (get record)) := by
  intro value value' record scalar given hgives hassign hread hobstacle
  obtain ⟨es, child', hes, hchild, hes'⟩ := assignAt?_cons hpath hassign
  unfold obstacle at hobstacle
  rw [hes] at hobstacle
  dsimp only at hobstacle
  by_cases htwin : es.hasTwin name
  · exact absurd hread (howns.read_insert_of_twin hes' htwin record)
  · rw [if_neg htwin] at hobstacle
    have hread' := howns.read_of_insert hes' (Bool.eq_false_iff.2 htwin) hread
    exact hinner _ child' _ scalar given hgives hchild hread' hobstacle

end ServerManifests.Values
