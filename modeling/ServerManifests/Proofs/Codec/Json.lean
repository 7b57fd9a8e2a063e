import ServerManifests.Proofs.Yaml.Tree

/-!
Trees made from JSON. They are well formed if no object has a name twice.
-/
namespace ServerManifests

open Yaml Value

namespace Json

mutual

/-- Whether no object in a value has a name twice. -/
def namesDiffer : Json → Bool
  | .list items => namesDifferInItems items
  | .object members => decide (members.map Prod.fst).Nodup && namesDifferInMembers members
  | _ => true

def namesDifferInItems : List Json → Bool
  | [] => true
  | item :: rest => item.namesDiffer && namesDifferInItems rest

def namesDifferInMembers : List (String × Json) → Bool
  | [] => true
  | (_, value) :: rest => value.namesDiffer && namesDifferInMembers rest

end

end Json

namespace Yaml.Value

open Json

theorem keys_ofJsonMembers (members : List (String × Json)) :
    (ofJsonMembers members).map Prod.fst = (members.map Prod.fst).map .text := by
  induction members with
  | nil => rfl
  | cons member rest ih =>
    rw [List.map_cons, List.map_cons, ← ih]
    rfl

theorem distinct_ofJsonMembers {members : List (String × Json)}
    (h : (members.map Prod.fst).Nodup) : (ofJsonMembers members).Distinct := by
  rw [Entries.distinct_iff_keys, keys_ofJsonMembers, List.pairwise_map]
  refine List.Pairwise.imp ?_ h
  intro a b hne
  rw [← Bool.not_eq_true, agrees_text_iff]
  intro heq
  exact hne (Value.text.inj heq)

mutual

theorem wellFormed_ofJson (json : Json) (h : json.namesDiffer = true) :
    (ofJson json).WellFormed := by
  cases json with
  | list items => exact everywhere_list_iff.2 ⟨trivial, wellFormed_ofJsonItems items h⟩
  | object members =>
    obtain ⟨hnames, hmembers⟩ := Bool.and_eq_true_iff.1 h
    have hdistinct := distinct_ofJsonMembers (of_decide_eq_true hnames)
    exact everywhere_map_iff.2 ⟨hdistinct, wellFormed_ofJsonMembers members hmembers⟩
  | _ => exact wellFormed_of_isScalar trivial

theorem wellFormed_ofJsonItems (items : List Json) (h : namesDifferInItems items = true) :
    ∀ item ∈ ofJsonItems items, item.WellFormed := by
  cases items with
  | nil => exact fun item hitem => absurd hitem List.not_mem_nil
  | cons first rest =>
    obtain ⟨hfirst, hrest⟩ := Bool.and_eq_true_iff.1 h
    intro item hitem
    rcases List.mem_cons.1 hitem with rfl | hitem
    · exact wellFormed_ofJson first hfirst
    · exact wellFormed_ofJsonItems rest hrest item hitem

theorem wellFormed_ofJsonMembers (members : List (String × Json))
    (h : namesDifferInMembers members = true) :
    ∀ e ∈ ofJsonMembers members, e.1.WellFormed ∧ e.2.WellFormed := by
  cases members with
  | nil => exact fun e he => absurd he List.not_mem_nil
  | cons first rest =>
    obtain ⟨name, value⟩ := first
    obtain ⟨hvalue, hrest⟩ := Bool.and_eq_true_iff.1 h
    intro e he
    rcases List.mem_cons.1 he with rfl | he
    · exact ⟨wellFormed_of_isScalar trivial, wellFormed_ofJson value hvalue⟩
    · exact wellFormed_ofJsonMembers rest hrest e he

end

end Yaml.Value

end ServerManifests
