import Mathlib.Data.List.Forall2
import Mathlib.Data.List.Sort
import ServerManifests.Proofs.Yaml.Tree

/-!
Trees that differ in the order of entries at most. Two mappings are similar if every
key has similar values in them, or is in neither. While keys differ this is a
permutation of the entries, at every depth, and similar trees are equal as values.
-/
namespace ServerManifests.Yaml

open Value

/-- Equality up to the order in which mappings have their entries, at every depth. -/
inductive Value.Similar : Value → Value → Prop
  | scalar {value : Value} (h : value.IsScalar) : Similar value value
  | list {items items' : List Value} (length : items.length = items'.length)
      (each : ∀ item item', (item, item') ∈ items.zip items' → Similar item item') :
      Similar (.list items) (.list items')
  | map {es es' : Entries} (keys : ∀ key, (es.find? key).isSome = (es'.find? key).isSome)
      (each : ∀ key value value', es.find? key = some value → es'.find? key = some value' →
        Similar value value') : Similar (.map es) (.map es')
  | tagged {tag : String} {value value' : Value} (content : Similar value value') :
      Similar (.tagged tag value) (.tagged tag value')

namespace Value

variable {value value' : Value} {es es' : Entries}

theorem similar_list_iff {items items' : List Value} :
    Similar (.list items) (.list items') ↔ List.Forall₂ Similar items items' := by
  rw [List.forall₂_iff_zip]
  constructor
  · intro h
    cases h with
    | scalar h => exact h.elim
    | list length each => exact ⟨length, each _ _⟩
  · rintro ⟨length, each⟩
    exact .list length fun _ _ => each

theorem optionRel_iff {r : Value → Value → Prop} {present present' : Option Value} :
    Option.Rel r present present' ↔ present.isSome = present'.isSome ∧
      ∀ value value', present = some value → present' = some value' → r value value' := by
  constructor
  · rintro (h | _)
    · exact ⟨rfl, fun _ _ hvalue hvalue' => Option.some.inj hvalue ▸ Option.some.inj hvalue' ▸ h⟩
    · exact ⟨rfl, fun _ _ hvalue => nomatch hvalue⟩
  · rintro ⟨hsome, heach⟩
    cases present with
    | none =>
      cases present' with
      | none => exact .none
      | some value' => exact nomatch hsome
    | some value =>
      cases present' with
      | none => exact nomatch hsome
      | some value' => exact .some (heach value value' rfl rfl)

theorem exists_of_optionRel {r : Value → Value → Prop} {present present' : Option Value}
    (h : Option.Rel r present present') (hvalue : present = some value) :
    ∃ value', present' = some value' ∧ r value value' := by
  subst hvalue
  cases h with
  | some h => exact ⟨_, rfl, h⟩

theorem similar_map_iff :
    Similar (.map es) (.map es') ↔
      ∀ key, Option.Rel Similar (es.find? key) (es'.find? key) := by
  simp only [optionRel_iff, forall_and]
  constructor
  · intro h
    cases h with
    | scalar h => exact h.elim
    | map keys each => exact ⟨keys, each⟩
  · rintro ⟨keys, each⟩
    exact .map keys each

theorem Similar.refl (value : Value) : Similar value value := by
  have hchildren : ∀ child ∈ value.children, Similar child child := fun child hchild =>
    Similar.refl child
  cases value with
  | list items => exact similar_list_iff.2 (List.forall₂_same.2 hchildren)
  | map es =>
    refine similar_map_iff.2 fun key => ?_
    cases hfind : Entries.find? es key with
    | none => exact .none
    | some present => exact .some (hchildren present (mem_children_of_find? hfind))
  | tagged tag value => exact .tagged (hchildren value List.mem_cons_self)
  | _ => exact .scalar trivial
termination_by value
decreasing_by exact sizeOf_lt_of_mem_children hchild

theorem Similar.option_refl (present : Option Value) : Option.Rel Similar present present := by
  cases present with
  | none => exact .none
  | some value => exact .some (.refl value)

theorem Similar.symm (h : Similar value value') : Similar value' value := by
  induction h with
  | scalar h => exact .scalar h
  | list length each ih =>
    refine similar_list_iff.2 (List.Forall₂.flip ?_)
    exact List.forall₂_iff_zip.2 ⟨length, ih _ _⟩
  | map keys each ih =>
    exact .map (fun key => (keys key).symm) fun key present present' hfind hfind' =>
      ih key present' present hfind' hfind
  | tagged content ih => exact .tagged ih

/-- What is similar to a mapping is a mapping. -/
theorem Similar.exists_map (h : Similar value value') (hvalue : value = .map es) :
    ∃ es', value' = .map es' ∧ Similar (.map es) (.map es') := by
  subst hvalue
  cases h with
  | scalar h => exact h.elim
  | map keys each => exact ⟨_, rfl, .map keys each⟩

theorem Similar.isNull_eq (h : Similar value value') : value.isNull = value'.isNull := by
  induction h with
  | scalar h => rfl
  | list length each ih => rfl
  | map keys each ih => rfl
  | tagged content ih => exact ih

theorem Similar.untagged (h : Similar value value') :
    Similar value.untagged value'.untagged := by
  induction h with
  | scalar h => exact .refl _
  | list length each ih => exact .list length each
  | map keys each ih => exact .map keys each
  | tagged content ih => exact ih

end Value

namespace Entries

variable {es es' : Entries}

/-- Where keys differ and relate to each other by lookups, entries relate one by one
after a permutation. -/
theorem exists_perm_forall₂ {r : Value → Value → Prop} (hes : es.Distinct) (hes' : es'.Distinct)
    (h : ∀ key, Option.Rel r (es.find? key) (es'.find? key)) :
    ∃ arranged : Entries, es'.Perm arranged ∧
      List.Forall₂ (fun e e' => e.1.agrees e'.1 = true ∧ r e.2 e'.2) es arranged := by
  induction es generalizing es' with
  | nil =>
    have hnil : es' = [] := by
      refine List.eq_nil_iff_forall_not_mem.2 fun e he => ?_
      have hfound := (find?_eq_some_iff hes').2 ⟨e.1, he, agrees_self _⟩
      have hkey := h e.1
      rw [hfound] at hkey
      cases hkey
    exact ⟨[], hnil ▸ .refl _, .nil⟩
  | cons e rest ih =>
    obtain ⟨value', hfind', hvalue⟩ := exists_of_optionRel (h e.1)
      ((find?_cons e rest e.1).trans (if_pos (agrees_self _)))
    -- Its partner is taken out on the other side, where no other key agrees with it.
    obtain ⟨k, hk, hperm⟩ := perm_of_find?_eq_some hfind'
    have hrest : Distinct rest := (List.pairwise_cons.1 hes).2
    obtain ⟨arranged, hperm', hall⟩ := ih hrest (hes'.remove e.1) fun key => by
      have hother := h key
      rw [find?_cons] at hother
      rw [find?_remove hes']
      by_cases hagrees : e.1.agrees key
      · rw [if_pos hagrees, hes.find?_rest hagrees]
        exact .none
      · rwa [if_neg hagrees] at hother ⊢
    refine ⟨(k, value') :: arranged, ?_, .cons ⟨?_, ?_⟩ hall⟩
    · calc
        es' |>.Perm (es'.remove e.1 ++ [(k, value')]) := hperm
        _ |>.Perm ((k, value') :: es'.remove e.1) := List.perm_append_singleton ..
        _ |>.Perm ((k, value') :: arranged) := hperm'.cons _
    · rw [agrees_comm]
      exact hk
    · exact hvalue

theorem find?_of_forall₂ {r : Value → Value → Prop}
    (h : List.Forall₂ (fun e e' => e.1.agrees e'.1 = true ∧ r e.2 e'.2) es es') (key : Value) :
    Option.Rel r (es.find? key) (es'.find? key) := by
  induction h with
  | nil => exact .none
  | @cons e e' rest rest' hhead _ ih =>
    have hsame : e.1.agrees key = e'.1.agrees key := by
      rw [agrees_comm, agrees_congr hhead.1, agrees_comm]
    rw [find?_cons, find?_cons, hsame]
    split
    · exact .some hhead.2
    · exact ih

end Entries

/-- While keys differ, similarity is a permutation with similar values at the same keys. -/
theorem Value.similar_map_iff_perm {es es' : Entries} (hes : es.Distinct) (hes' : es'.Distinct) :
    Similar (.map es) (.map es') ↔ ∃ arranged : Entries, es'.Perm arranged ∧
      List.Forall₂ (fun e e' => e.1.agrees e'.1 = true ∧ Similar e.2 e'.2) es arranged := by
  rw [similar_map_iff]
  constructor
  · exact Entries.exists_perm_forall₂ hes hes'
  · rintro ⟨arranged, hperm, hall⟩ key
    rw [Entries.find?_perm hes' hperm]
    exact Entries.find?_of_forall₂ hall key

namespace Value

/-- The order in which signatures are placed. -/
def Precedes (s t : List Nat) : Prop := t.lex s = false

instance : DecidableRel Precedes := fun s t => inferInstanceAs (Decidable (t.lex s = false))

instance : Std.Total Precedes where
  total s t := by
    simp only [Precedes, List.lex_eq_false_iff_ge]
    exact List.le_total s t

instance : Std.Antisymm Precedes where
  antisymm s t hst hts := by
    simp only [Precedes, List.lex_eq_false_iff_ge] at hst hts
    exact List.le_antisymm hst hts

instance : IsTrans (List Nat) Precedes where
  trans s t u hst htu := by
    simp only [Precedes, List.lex_eq_false_iff_ge] at hst htu ⊢
    exact List.le_trans hst htu

theorem placeSignature_eq_orderedInsert (s : List Nat) (signatures : List (List Nat)) :
    placeSignature s signatures = signatures.orderedInsert Precedes s := by
  induction signatures with
  | nil => rfl
  | cons first rest ih =>
    rw [placeSignature, List.orderedInsert_cons, ih]
    cases h : first.lex s <;> simp [Precedes, h]

theorem signatureEntries_eq_insertionSort (es : Entries) :
    signatureEntries es =
      (es.map fun e => e.1.signature ++ e.2.signature).insertionSort Precedes := by
  induction es with
  | nil => rfl
  | cons e rest ih =>
    rw [signatureEntries, ih, placeSignature_eq_orderedInsert]
    rfl

theorem signatureItems_eq_flatten (items : List Value) :
    signatureItems items = (items.map signature).flatten := by
  induction items with
  | nil => rfl
  | cons item rest ih =>
    rw [signatureItems, ih]
    rfl

theorem signatureEntries_perm {es es' : Entries} (h : es.Perm es') :
    signatureEntries es = signatureEntries es' := by
  rw [signatureEntries_eq_insertionSort, signatureEntries_eq_insertionSort]
  have hperm := h.map fun e : Value × Value => e.1.signature ++ e.2.signature
  refine List.Perm.eq_of_pairwise' (List.pairwise_insertionSort ..)
    (List.pairwise_insertionSort ..) ?_
  exact (List.perm_insertionSort ..).trans (hperm.trans (List.perm_insertionSort ..).symm)

/-- Similar trees are equal as values. -/
theorem Similar.agrees {value value' : Value} (h : Similar value value') (hvalue : value.WellFormed)
    (hvalue' : value'.WellFormed) : value.agrees value' = true := by
  rw [agrees_iff]
  induction h with
  | scalar h => rfl
  | @list items items' length each ih =>
    have hsame : List.Forall₂ (fun item item' => item.signature = item'.signature) items items' :=
      List.forall₂_iff_zip.2 ⟨length, fun {item item'} hmem =>
        ih item item' hmem (hvalue.child (List.of_mem_zip hmem).1)
          (hvalue'.child (List.of_mem_zip hmem).2)⟩
    have hitems : items.map signature = items'.map signature := by
      rw [← List.forall₂_eq_eq_eq, List.forall₂_map_left_iff, List.forall₂_map_right_iff]
      exact hsame
    rw [signature, signature, signatureItems_eq_flatten, signatureItems_eq_flatten, hitems, length]
  | @map es es' keys each ih =>
    have hlookups (key : Value) :
        Option.Rel (fun present present' => present.signature = present'.signature)
          (Entries.find? es key) (Entries.find? es' key) :=
      optionRel_iff.2 ⟨keys key, fun present present' hfind hfind' =>
        ih key present present' hfind hfind' (Everywhere.find? hvalue hfind)
          (Everywhere.find? hvalue' hfind')⟩
    obtain ⟨arranged, hperm, hall⟩ :=
      Entries.exists_perm_forall₂ hvalue.here hvalue'.here hlookups
    have hentries : (es.map fun e => e.1.signature ++ e.2.signature) =
        arranged.map fun e => e.1.signature ++ e.2.signature := by
      rw [← List.forall₂_eq_eq_eq, List.forall₂_map_left_iff, List.forall₂_map_right_iff]
      exact hall.imp fun e e' h => by rw [agrees_iff.1 h.1, h.2]
    rw [signature, signature, signatureEntries_perm hperm, signatureEntries_eq_insertionSort,
      hentries, ← signatureEntries_eq_insertionSort, hall.length_eq, hperm.length_eq]
  | tagged content ih =>
    rw [signature, signature, ih (everywhere_tagged_iff.1 hvalue).2
      (everywhere_tagged_iff.1 hvalue').2]

end Value

end ServerManifests.Yaml
