import Mathlib.Data.List.Induction
import ServerManifests.Proofs.Values.Layers

/-!
What layers say about an entry of a section. A layer mentions the entry if it gives
it a value, even a null, or if it clears the section with a value that is no
mapping. However many layers there are, the tree has at the entry what the last
mention says.
-/
namespace ServerManifests.Values

open Yaml Value

/-- What a layer says about an entry of a section. -/
inductive Mention where
  | given (value : Value)
  | cleared

/-- What a value of the section says about the entry `name`. -/
def Mention.inSection? (name : String) : Value → Option Mention
  | .map entries => (Entries.find? entries (.text name)).map .given
  | _ => some .cleared

/-- The mention of `name` in the section at `part`, if the layer has one. -/
def mention? (part name : String) (layer : Value) : Option Mention :=
  (layer.get? [part]).bind (Mention.inSection? name)

/-- The last mention in a list of layers. -/
def lastMention? (part name : String) (layers : List Value) : Option Mention :=
  (layers.filterMap (mention? part name)).getLast?

/-- What a mention makes of what was there. -/
def Mention.apply (present : Option Value) : Mention → Option Value
  | .given value => combined present (some value)
  | .cleared => none

/-- What an entry has after a layer, from what it had and the layer's mention. -/
def afterMention (present : Option Value) : Option Mention → Option Value
  | none => present
  | some mention => mention.apply present

theorem get?_singleton_map (key : String) (entries : Entries) :
    (Value.map entries).get? [key] = entries.find? (.text key) := Option.bind_fun_some _

theorem get?_of_not_map {value : Value} (h : ∀ entries, value ≠ .map entries) (key : String)
    (rest : List String) : value.get? (key :: rest) = none := by
  cases value with
  | map entries => exact absurd rfl (h entries)
  | _ => rfl

theorem get?_cons (key : String) (rest : List String) (value : Value) :
    value.get? (key :: rest) = (value.get? [key]).bind (Value.get? rest) := by
  cases value with
  | map entries =>
    rw [get?_singleton_map]
    rfl
  | _ => rfl

/-- Merging a mapping combines what the two sides have at a key. -/
theorem get?_merge_map {base : Value} {overlay : Entries} (hbase : base.WellFormed)
    (hoverlay : (Value.map overlay).WellFormed) (key : String) :
    (merge base (.map overlay)).get? [key] =
      combined (base.get? [key]) (overlay.find? (.text key)) := by
  by_cases hmap : ∃ entries, base = .map entries
  · obtain ⟨entries, rfl⟩ := hmap
    rw [merge_map, get?_singleton_map, get?_singleton_map]
    exact find?_mergeEntries hbase.here hoverlay.here _
  · have hnot : ∀ entries, base ≠ .map entries := fun entries h => hmap ⟨entries, h⟩
    rw [merge_of_not_map hnot, get?_of_not_map hnot, get?_singleton_map]
    cases Entries.find? overlay (.text key) <;> rfl

theorem everywhere_get? {p : Value → Prop} {root value : Value} (h : root.Everywhere p)
    {path : List String} (hget : root.get? path = some value) : value.Everywhere p := by
  induction path generalizing root with
  | nil => exact Option.some.inj hget ▸ h
  | cons key rest ih =>
    cases root with
    | map entries =>
      obtain ⟨child, hchild, hrest⟩ := Option.bind_eq_some_iff.1 hget
      exact ih (h.find? hchild) hrest
    | _ => cases hget

/-- A section that is cleared has no entries, whatever it had. -/
private theorem combined_not_map {value : Value} (h : ∀ entries, value ≠ .map entries)
    (present : Option Value) (name : String) :
    (combined present (some value)).bind (Value.get? [name]) = none := by
  cases present with
  | none => exact get?_of_not_map h name []
  | some present =>
    unfold combined
    by_cases hnull : value.isNull
    · simp [hnull]
    · simp [hnull, merge_overlay_not_map h, get?_of_not_map h]

/-- A section that is a mapping is merged into what is there, entry by entry. -/
private theorem combined_map {present : Option Value} {entries : Entries}
    (hpresent : ∀ value, present = some value → value.WellFormed)
    (hentries : (Value.map entries).WellFormed) (name : String) :
    (combined present (some (.map entries))).bind (Value.get? [name]) =
      combined (present.bind (Value.get? [name])) (entries.find? (.text name)) := by
  cases present with
  | none =>
    change (Value.map entries).get? [name] = combined none _
    rw [get?_singleton_map]
    cases Entries.find? entries (.text name) <;> rfl
  | some value => exact get?_merge_map (hpresent value rfl) hentries name

/-- One layer changes an entry as its mention says, if it has one. -/
theorem get?_stack {root layer : Value} (hroot : Sound root) (hlayer : IsLayer layer)
    (part name : String) :
    (stack root layer).get? [part, name] =
      afterMention (root.get? [part, name]) (mention? part name layer) := by
  rcases hlayer.shape with rfl | ⟨overlay, rfl⟩
  · rfl
  change (merge root (.map overlay)).get? [part, name] = _
  unfold mention?
  rw [get?_cons, get?_merge_map hroot.wellFormed hlayer.wellFormed, get?_cons part [name] root,
    ← get?_singleton_map]
  cases hgiven : (Value.map overlay).get? [part] with
  | none => rfl
  | some value =>
    by_cases hmap : ∃ entries, value = .map entries
    · obtain ⟨entries, rfl⟩ := hmap
      have hentries := everywhere_get? hlayer.wellFormed hgiven
      rw [combined_map (fun _ hget => everywhere_get? hroot.wellFormed hget) hentries]
      change _ = afterMention _ ((Entries.find? entries (.text name)).map .given)
      cases Entries.find? entries (.text name) <;> rfl
    · have hnot : ∀ entries, value ≠ .map entries := fun entries h => hmap ⟨entries, h⟩
      have hcleared : Mention.inSection? name value = some .cleared := by
        cases value with
        | map entries => exact absurd rfl (hnot entries)
        | _ => rfl
      rw [combined_not_map hnot, Option.bind_some, hcleared]
      rfl

/-- What can be found at an entry after its last mention. -/
def Reflects (found : Option Value) : Option Mention → Prop
  | none => found = none
  | some .cleared => found = none
  | some (.given value) =>
    found = some value ∨ (value = .null ∧ found = none) ∨
      ∃ entries merged, value = .map entries ∧ found = some (.map merged)

theorem noTag_mention? {layer value : Value} (h : layer.Everywhere NoTag) {part name : String}
    (hmention : mention? part name layer = some (.given value)) : value.NoTag := by
  obtain ⟨content, hcontent, hgiven⟩ := Option.bind_eq_some_iff.1 hmention
  cases content with
  | map entries =>
    obtain ⟨given, hfind, heq⟩ := Option.map_eq_some_iff.1 hgiven
    obtain rfl := Mention.given.inj heq
    rw [← get?_singleton_map] at hfind
    exact (everywhere_get? (everywhere_get? h hcontent) hfind).here
  | _ => cases hgiven

theorem reflects_apply (present : Option Value) {mention : Mention}
    (h : ∀ value, mention = .given value → value.NoTag) :
    Reflects (mention.apply present) (some mention) := by
  cases mention with
  | cleared => rfl
  | given value =>
    cases present with
    | none => exact .inl rfl
    | some present =>
      change Reflects (if value.isNull then none else some (merge present value)) _
      by_cases hnull : value.isNull
      · rw [if_pos hnull]
        exact .inr (.inl ⟨(isNull_iff_of_noTag (h value rfl)).1 hnull, rfl⟩)
      · rw [if_neg hnull]
        by_cases hmap : ∃ entries, value = .map entries
        · obtain ⟨entries, rfl⟩ := hmap
          refine .inr (.inr ⟨entries, ?_⟩)
          by_cases hpresent : ∃ entries, present = .map entries
          · obtain ⟨base, rfl⟩ := hpresent
            exact ⟨_, rfl, congrArg some (merge_map ..)⟩
          · refine ⟨entries, rfl, congrArg some (merge_of_not_map ?_)⟩
            exact fun base h => hpresent ⟨base, h⟩
        · refine .inl (congrArg some (merge_overlay_not_map ?_))
          exact fun entries h => hmap ⟨entries, h⟩

/-- After any layers an entry has what its last mention says. -/
theorem reflects_lastMention {root : Value} {layers : List Value} (hroot : Sound root)
    (hlayers : ∀ layer ∈ layers, IsLayer layer) (part name : String)
    (hnone : root.get? [part, name] = none) :
    Reflects ((layers.foldl stack root).get? [part, name]) (lastMention? part name layers) := by
  induction layers using List.reverseRecOn with
  | nil => exact hnone
  | append_singleton layers layer ih =>
    have hinit : ∀ layer ∈ layers, IsLayer layer := fun layer hmem =>
      hlayers layer (List.mem_append_left _ hmem)
    have hlast : IsLayer layer := hlayers layer (by simp)
    have hsplit : lastMention? part name (layers ++ [layer]) =
        (mention? part name layer).or (lastMention? part name layers) := by
      unfold lastMention?
      rw [List.filterMap_append, List.getLast?_append]
      cases hmention : mention? part name layer with
      | none => simp [hmention]
      | some mention => simp [hmention]
    rw [List.foldl_append, hsplit]
    change Reflects ((stack (layers.foldl stack root) layer).get? [part, name]) _
    rw [get?_stack (hroot.foldl_stack hinit) hlast]
    cases hmention : mention? part name layer with
    | none => exact ih hinit
    | some mention =>
      refine reflects_apply _ fun value hvalue => ?_
      subst hvalue
      exact noTag_mention? hlast.noTag hmention

end ServerManifests.Values
