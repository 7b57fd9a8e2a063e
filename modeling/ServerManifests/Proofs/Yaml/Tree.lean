import ServerManifests.Codec.Basic
import ServerManifests.Proofs.Yaml.Entries

/-!
Properties of whole trees. A tree is well formed if no mapping in it has keys that
agree, and it has no tag if no value in it is tagged; both are properties that
hold of a value and of all values below it.
-/
namespace ServerManifests.Yaml.Value

/-- The values directly below a value, keys of mappings among them. -/
def children : Value → List Value
  | .list items => items
  | .map entries => entries.map Prod.fst ++ entries.map Prod.snd
  | .tagged _ value => [value]
  | _ => []

/-- A property of a value and of all values below it. -/
inductive Everywhere (p : Value → Prop) : Value → Prop
  | node {value : Value} (here : p value) (below : ∀ child ∈ value.children, Everywhere p child) :
      Everywhere p value

def KeysDiffer : Value → Prop
  | .map entries => Entries.Distinct entries
  | _ => True

def NoTag : Value → Prop
  | .tagged _ _ => False
  | _ => True

def IsScalar : Value → Prop
  | .list _ => False
  | .map _ => False
  | .tagged _ _ => False
  | _ => True

abbrev WellFormed : Value → Prop := Everywhere KeysDiffer

variable {p : Value → Prop}

theorem Everywhere.here {value : Value} (h : value.Everywhere p) : p value := by
  cases h with
  | node here below => exact here

theorem Everywhere.child {value child : Value} (h : value.Everywhere p)
    (hchild : child ∈ value.children) : child.Everywhere p := by
  cases h with
  | node here below => exact below child hchild

theorem everywhere_map_iff {entries : Entries} :
    (map entries).Everywhere p ↔ p (.map entries) ∧
      ∀ e ∈ entries, e.1.Everywhere p ∧ e.2.Everywhere p := by
  constructor
  · intro h
    refine ⟨h.here, fun e he => ⟨h.child ?_, h.child ?_⟩⟩
    · exact List.mem_append_left _ (List.mem_map_of_mem he)
    · exact List.mem_append_right _ (List.mem_map_of_mem he)
  · intro hall
    obtain ⟨here, h⟩ := hall
    refine .node here fun child hchild => ?_
    rcases List.mem_append.1 hchild with hkey | hvalue
    · obtain ⟨e, he, rfl⟩ := List.mem_map.1 hkey
      exact (h e he).1
    · obtain ⟨e, he, rfl⟩ := List.mem_map.1 hvalue
      exact (h e he).2

theorem mem_children_of_find? {entries : Entries} {key value : Value}
    (h : entries.find? key = some value) : value ∈ (map entries).children := by
  obtain ⟨k, hmem, -⟩ := Entries.mem_of_find?_eq_some h
  exact List.mem_append_right _ (List.mem_map_of_mem hmem)

theorem Everywhere.find? {entries : Entries} {key value : Value}
    (h : (map entries).Everywhere p) (hfind : entries.find? key = some value) :
    value.Everywhere p := h.child (mem_children_of_find? hfind)

/-- A block that is not there counts as an empty one. -/
theorem Everywhere.find?_getD {entries : Entries} (h : (map entries).Everywhere p)
    (hempty : p (.map [])) (key : Value) :
    ((entries.find? key).getD (.map [])).Everywhere p := by
  cases hfind : entries.find? key with
  | none => exact everywhere_map_iff.2 ⟨hempty, fun e he => absurd he List.not_mem_nil⟩
  | some value => exact h.find? hfind

theorem everywhere_append {entries : Entries} {key value : Value}
    (h : (map entries).Everywhere p) (hkey : key.Everywhere p) (hvalue : value.Everywhere p)
    (here : p (.map (entries ++ [(key, value)]))) :
    (map (entries ++ [(key, value)])).Everywhere p := by
  refine everywhere_map_iff.2 ⟨here, fun e he => ?_⟩
  rcases List.mem_append.1 he with he | he
  · exact (everywhere_map_iff.1 h).2 e he
  · obtain rfl := List.mem_singleton.1 he
    exact ⟨hkey, hvalue⟩

theorem everywhere_list_iff {items : List Value} :
    (list items).Everywhere p ↔ p (.list items) ∧ ∀ item ∈ items, item.Everywhere p := by
  constructor
  · exact fun h => ⟨h.here, fun item hitem => h.child hitem⟩
  · exact fun h => .node h.1 h.2

theorem everywhere_tagged_iff {tag : String} {value : Value} :
    (tagged tag value).Everywhere p ↔ p (.tagged tag value) ∧ value.Everywhere p := by
  constructor
  · exact fun h => ⟨h.here, h.child (List.mem_singleton_self _)⟩
  · intro hall
    obtain ⟨here, h⟩ := hall
    refine .node here fun child hchild => ?_
    obtain rfl := List.mem_singleton.1 hchild
    exact h

theorem Everywhere.untagged {value : Value} (h : value.Everywhere p) :
    value.untagged.Everywhere p := by
  induction value using Value.untagged.induct with
  | case1 tag value ih => exact ih (everywhere_tagged_iff.1 h).2
  | case2 value hnot =>
    cases value with
    | tagged tag value => exact absurd rfl (hnot tag value)
    | _ => exact h

theorem everywhere_of_isScalar {value : Value} (h : value.IsScalar) (here : p value) :
    value.Everywhere p := by
  refine .node here fun child hchild => ?_
  cases value with
  | list items => exact h.elim
  | map entries => exact h.elim
  | tagged tag value => exact h.elim
  | _ => exact absurd hchild List.not_mem_nil

theorem wellFormed_of_isScalar {value : Value} (h : value.IsScalar) : value.WellFormed := by
  refine everywhere_of_isScalar h ?_
  cases value with
  | map entries => exact h.elim
  | _ => exact trivial

theorem sizeOf_lt_of_mem_children {value child : Value} (h : child ∈ value.children) :
    sizeOf child < sizeOf value := by
  cases value with
  | list items =>
    have hlt : sizeOf child < sizeOf items := List.sizeOf_lt_of_mem h
    simp only [list.sizeOf_spec]
    omega
  | map entries =>
    have hentry : ∃ e ∈ entries, child = e.1 ∨ child = e.2 := by
      rcases List.mem_append.1 h with hkey | hvalue
      · obtain ⟨e, he, rfl⟩ := List.mem_map.1 hkey
        exact ⟨e, he, .inl rfl⟩
      · obtain ⟨e, he, rfl⟩ := List.mem_map.1 hvalue
        exact ⟨e, he, .inr rfl⟩
    obtain ⟨⟨key, content⟩, he, hchild⟩ := hentry
    have hlt : sizeOf (key, content) < sizeOf entries := List.sizeOf_lt_of_mem he
    simp only [Prod.mk.sizeOf_spec] at hlt
    simp only [map.sizeOf_spec]
    rcases hchild with rfl | rfl
    · omega
    · omega
  | tagged tag value =>
    obtain rfl := List.mem_singleton.1 h
    simp only [tagged.sizeOf_spec]
    omega
  | _ => exact absurd h List.not_mem_nil

theorem hasTagInItems_eq_false_iff {items : List Value} :
    hasTagInItems items = false ↔ ∀ item ∈ items, item.hasTag = false := by
  induction items with
  | nil => simp [hasTagInItems]
  | cons item rest ih => simp [hasTagInItems, ih]

theorem hasTagInEntries_eq_false_iff {entries : Entries} :
    hasTagInEntries entries = false ↔
      ∀ e ∈ entries, e.1.hasTag = false ∧ e.2.hasTag = false := by
  induction entries with
  | nil => simp [hasTagInEntries]
  | cons e rest ih => simp [hasTagInEntries, ih, and_assoc]

theorem everywhere_noTag {value : Value} (h : value.hasTag = false) :
    value.Everywhere NoTag := by
  have hchildren : NoTag value ∧ ∀ child ∈ value.children, child.hasTag = false := by
    cases value with
    | list items => exact ⟨trivial, hasTagInItems_eq_false_iff.1 h⟩
    | map entries =>
      have hentries := hasTagInEntries_eq_false_iff.1 h
      refine ⟨trivial, fun child hchild => ?_⟩
      rcases List.mem_append.1 hchild with hkey | hvalue
      · obtain ⟨e, he, rfl⟩ := List.mem_map.1 hkey
        exact (hentries e he).1
      · obtain ⟨e, he, rfl⟩ := List.mem_map.1 hvalue
        exact (hentries e he).2
    | tagged tag value => simp [hasTag] at h
    | _ => exact ⟨trivial, fun child hchild => absurd hchild List.not_mem_nil⟩
  exact .node hchildren.1 fun child hchild => everywhere_noTag (hchildren.2 child hchild)
termination_by value
decreasing_by exact sizeOf_lt_of_mem_children hchild

theorem untagged_of_noTag {value : Value} (h : value.NoTag) : value.untagged = value := by
  cases value with
  | tagged tag value => exact h.elim
  | _ => rfl

theorem isNull_iff_of_noTag {value : Value} (h : value.NoTag) :
    value.isNull = true ↔ value = .null := by
  unfold isNull
  rw [untagged_of_noTag h]
  cases value <;> simp

mutual

/-- Whether no mapping in a value has keys that agree, key by key. -/
def isWellFormed : Value → Bool
  | .list items => isWellFormedInItems items
  | .map entries =>
    decide (entries.Pairwise fun a b => a.1.agrees b.1 = false) && isWellFormedInEntries entries
  | .tagged _ value => value.isWellFormed
  | _ => true

def isWellFormedInItems : List Value → Bool
  | [] => true
  | item :: rest => item.isWellFormed && isWellFormedInItems rest

def isWellFormedInEntries : List (Value × Value) → Bool
  | [] => true
  | (key, value) :: rest => key.isWellFormed && value.isWellFormed && isWellFormedInEntries rest

end

theorem isWellFormedInItems_iff {items : List Value} :
    isWellFormedInItems items = true ↔ ∀ item ∈ items, item.isWellFormed = true := by
  induction items with
  | nil => simp [isWellFormedInItems]
  | cons item rest ih => simp [isWellFormedInItems, ih]

theorem isWellFormedInEntries_iff {entries : Entries} :
    isWellFormedInEntries entries = true ↔
      ∀ e ∈ entries, e.1.isWellFormed = true ∧ e.2.isWellFormed = true := by
  induction entries with
  | nil => simp [isWellFormedInEntries]
  | cons e rest ih => simp [isWellFormedInEntries, ih, and_assoc]

theorem isWellFormed_iff_children {value : Value} :
    value.isWellFormed = true ↔
      KeysDiffer value ∧ ∀ child ∈ value.children, child.isWellFormed = true := by
  cases value with
  | list items => simp [isWellFormed, isWellFormedInItems_iff, KeysDiffer, children]
  | map entries =>
    rw [isWellFormed, Bool.and_eq_true, decide_eq_true_iff, isWellFormedInEntries_iff]
    simp only [KeysDiffer, Entries.Distinct, children, List.forall_mem_append,
      List.forall_mem_map, imp_and, forall_and]
  | tagged tag value => simp [isWellFormed, KeysDiffer, children]
  | _ => simp [isWellFormed, KeysDiffer, children]

theorem wellFormed_of_isWellFormed {value : Value} (h : value.isWellFormed = true) :
    value.WellFormed := by
  obtain ⟨here, below⟩ := isWellFormed_iff_children.1 h
  exact .node here fun child hchild => wellFormed_of_isWellFormed (below child hchild)
termination_by value
decreasing_by exact sizeOf_lt_of_mem_children hchild

theorem wellFormed_iff {value : Value} : value.WellFormed ↔ value.isWellFormed = true := by
  constructor
  · intro h
    induction h with
    | node here below ih => exact isWellFormed_iff_children.2 ⟨here, ih⟩
  · exact wellFormed_of_isWellFormed

instance (value : Value) : Decidable value.WellFormed := decidable_of_iff _ wellFormed_iff.symm

/-- The value at the end of a path of keys. -/
def get? : List String → Value → Option Value
  | [], value => some value
  | key :: rest, .map entries => (Entries.find? entries (.text key)).bind (get? rest)
  | _ :: _, _ => none

end ServerManifests.Yaml.Value
