/-!
Maps from texts, kept in the order of their keys. The order is part of the
type, so two maps with the same entries are equal.
-/
namespace ServerManifests

structure TextMap (α : Type) where
  entries : List (String × α)
  ordered : entries.Pairwise (fun a b => a.1 < b.1)
  deriving DecidableEq

namespace TextMap

variable {α β : Type}

/-- Puts an entry at its place in the order, in place of one with the same key. -/
def place (key : String) (value : α) : List (String × α) → List (String × α)
  | [] => [(key, value)]
  | e :: rest =>
    if key < e.1 then (key, value) :: e :: rest
    else if e.1 < key then e :: place key value rest
    else (key, value) :: rest

theorem mem_place {key : String} {value : α} {es : List (String × α)} {e : String × α}
    (h : e ∈ place key value es) : e = (key, value) ∨ e ∈ es := by
  induction es with
  | nil => simpa [place] using h
  | cons first rest ih =>
    unfold place at h
    split at h
    · simpa using h
    · split at h
      · rcases List.mem_cons.1 h with rfl | h
        · simp
        · rcases ih h with rfl | h <;> simp_all
      · rcases List.mem_cons.1 h with rfl | h <;> simp_all

theorem place_ordered (key : String) (value : α) {es : List (String × α)}
    (h : es.Pairwise (fun a b => a.1 < b.1)) :
    (place key value es).Pairwise (fun a b => a.1 < b.1) := by
  induction es with
  | nil => simp [place]
  | cons first rest ih =>
    obtain ⟨hfirst, hrest⟩ := List.pairwise_cons.1 h
    unfold place
    split
    · next hlt =>
      refine List.pairwise_cons.2 ⟨fun e he => ?_, h⟩
      rcases List.mem_cons.1 he with rfl | he
      · exact hlt
      · exact String.lt_trans hlt (hfirst e he)
    · next hle =>
      split
      · next hlt =>
        refine List.pairwise_cons.2 ⟨fun e he => ?_, ih hrest⟩
        rcases mem_place he with rfl | he
        · exact hlt
        · exact hfirst e he
      · next hge =>
        have hkey : key = first.1 :=
          String.le_antisymm (String.not_lt.1 hge) (String.not_lt.1 hle)
        subst hkey
        exact List.pairwise_cons.2 ⟨hfirst, hrest⟩

def empty : TextMap α := ⟨[], List.Pairwise.nil⟩

instance : EmptyCollection (TextMap α) := ⟨empty⟩
instance : Inhabited (TextMap α) := ⟨empty⟩

def insert (m : TextMap α) (key : String) (value : α) : TextMap α :=
  ⟨place key value m.entries, place_ordered key value m.ordered⟩

/-- Of several values for one key the last one stays. -/
def ofList (es : List (String × α)) : TextMap α :=
  es.foldl (fun m e => m.insert e.1 e.2) empty

def get? (m : TextMap α) (key : String) : Option α := m.entries.lookup key

theorem lookup_cons_eq (key : String) (e : String × α) (rest : List (String × α)) :
    (e :: rest).lookup key = if key = e.1 then some e.2 else rest.lookup key := by
  rw [List.lookup_cons]
  by_cases h : key = e.1
  · simp [h]
  · have hne : (key == e.1) = false := by simpa using h
    simp [h, hne]

private theorem lookup_place (key key' : String) (value : α) (es : List (String × α)) :
    (place key value es).lookup key' = if key' = key then some value else es.lookup key' := by
  induction es with
  | nil => exact lookup_cons_eq ..
  | cons e rest ih =>
    unfold place
    by_cases hlt : key < e.1
    · rw [if_pos hlt, lookup_cons_eq]
    · rw [if_neg hlt]
      by_cases hgt : e.1 < key
      · have hne : e.1 ≠ key := fun heq => String.lt_irrefl _ (heq ▸ hgt)
        rw [if_pos hgt, lookup_cons_eq, lookup_cons_eq, ih]
        by_cases he : key' = e.1
        · rw [if_pos he, if_pos he, if_neg (he ▸ hne)]
        · rw [if_neg he, if_neg he]
      · have heq : e.1 = key := String.le_antisymm (String.not_lt.1 hlt) (String.not_lt.1 hgt)
        rw [if_neg hgt, lookup_cons_eq, lookup_cons_eq, heq]
        by_cases h : key' = key
        · rw [if_pos h, if_pos h]
        · rw [if_neg h, if_neg h, if_neg h]

theorem get?_insert (m : TextMap α) (key key' : String) (value : α) :
    (m.insert key value).get? key' = if key' = key then some value else m.get? key' :=
  lookup_place key key' value m.entries

def keys (m : TextMap α) : List String := m.entries.map (·.1)

def isEmpty (m : TextMap α) : Bool := m.entries.isEmpty

/-- Keeps the entries whose value `f` keeps. -/
def filterMap (f : α → Option β) (m : TextMap α) : TextMap β where
  entries := m.entries.filterMap fun e => (f e.2).map (e.1, ·)
  ordered := by
    refine List.Pairwise.filterMap _ ?_ m.ordered
    intro a b hab x hx y hy
    obtain ⟨_, _, rfl⟩ := Option.map_eq_some_iff.1 hx
    obtain ⟨_, _, rfl⟩ := Option.map_eq_some_iff.1 hy
    exact hab

def map (f : α → β) (m : TextMap α) : TextMap β := m.filterMap fun a => some (f a)

end TextMap

end ServerManifests
