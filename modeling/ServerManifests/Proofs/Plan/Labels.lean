import Mathlib.Data.String.Basic
import ServerManifests.Proofs.Plan.Requirements

/-!
Labels: lower case letters and digits, with dashes between them. The checks of a
name accept the labels up to a length and nothing else; its bytes are counted, but
the bytes of a label are its characters.
-/
namespace ServerManifests.Plan

def IsLetterOrDigit (c : Char) : Prop := ('a' ≤ c ∧ c ≤ 'z') ∨ ('0' ≤ c ∧ c ≤ '9')

instance (c : Char) : Decidable (IsLetterOrDigit c) := inferInstanceAs (Decidable (_ ∨ _))

/-- A letter or digit; or two of them, with letters, digits and dashes between. -/
def IsLabel (value : String) : Prop :=
  ∃ first, IsLetterOrDigit first ∧
    (value.toList = [first] ∨
      ∃ middle last, value.toList = first :: (middle ++ [last]) ∧
        (∀ c ∈ middle, IsLetterOrDigit c ∨ c = '-') ∧ IsLetterOrDigit last)

theorem isLabelEnd_iff {c : Char} : isLabelEnd c = true ↔ IsLetterOrDigit c := by
  show (('a' ≤ c && c ≤ 'z') || ('0' ≤ c && c ≤ '9')) = true ↔ IsLetterOrDigit c
  simp [IsLetterOrDigit]

theorem isLabelChar_iff {c : Char} : isLabelChar c = true ↔ IsLetterOrDigit c ∨ c = '-' := by
  simp [isLabelChar, isLabelEnd_iff]

/-- The characters of labels take one byte each. -/
theorem utf8Size_of_isLabelChar {c : Char} (h : isLabelChar c = true) : c.utf8Size = 1 := by
  rw [Char.utf8Size_eq_one_iff]
  rcases isLabelChar_iff.1 h with (hletter | hdigit) | rfl
  · exact UInt32.le_trans hletter.2 (by decide)
  · exact UInt32.le_trans hdigit.2 (by decide)
  · decide

theorem utf8Len_of_isLabelChar {cs : List Char} (h : ∀ c ∈ cs, isLabelChar c = true) :
    String.utf8Len cs = cs.length := by
  induction cs with
  | nil => rfl
  | cons c rest ih =>
    obtain ⟨hc, hrest⟩ := List.forall_mem_cons.1 h
    rw [String.utf8Len_cons, ih hrest, utf8Size_of_isLabelChar hc, List.length_cons]

theorem utf8ByteSize_of_isLabelChar {value : String}
    (h : ∀ c ∈ value.toList, isLabelChar c = true) : value.utf8ByteSize = value.length := by
  calc
    value.utf8ByteSize = (String.ofList value.toList).utf8ByteSize := by rw [String.ofList_toList]
    _ = String.utf8Len value.toList := String.utf8ByteSize_ofList _
    _ = value.toList.length := utf8Len_of_isLabelChar h
    _ = value.length := String.length_toList

theorem IsLabel.isLabelChar {value : String} (h : IsLabel value) :
    ∀ c ∈ value.toList, isLabelChar c = true := by
  obtain ⟨first, hfirst, hshape⟩ := h
  intro c hc
  rw [isLabelChar_iff]
  rcases hshape with hsingle | ⟨middle, last, hlong, hmiddle, hlast⟩
  · rw [hsingle, List.mem_singleton] at hc
    exact .inl (hc ▸ hfirst)
  · rw [hlong, List.mem_cons, List.mem_append, List.mem_singleton] at hc
    rcases hc with rfl | hc | rfl
    · exact .inl hfirst
    · exact hmiddle c hc
    · exact .inl hlast

/-- A label has its characters and its ends. -/
theorem isLabel_iff {value : String} :
    IsLabel value ↔ (∀ c ∈ value.toList, isLabelChar c = true) ∧
      (∃ first, value.toList.head? = some first ∧ isLabelEnd first = true) ∧
      ∃ last, value.toList.getLast? = some last ∧ isLabelEnd last = true := by
  constructor
  · intro h
    refine ⟨h.isLabelChar, ?_⟩
    obtain ⟨first, hfirst, hsingle | ⟨middle, last, hlong, -, hlast⟩⟩ := h
    · rw [hsingle]
      exact ⟨⟨first, rfl, isLabelEnd_iff.2 hfirst⟩, first, rfl, isLabelEnd_iff.2 hfirst⟩
    · rw [hlong]
      refine ⟨⟨first, rfl, isLabelEnd_iff.2 hfirst⟩, last, ?_, isLabelEnd_iff.2 hlast⟩
      rw [← List.cons_append, List.getLast?_concat]
  · rintro ⟨hchars, ⟨first, hhead, hfirst⟩, last, hgetLast, hlast⟩
    refine ⟨first, isLabelEnd_iff.1 hfirst, ?_⟩
    obtain ⟨rest, hrest⟩ := List.head?_eq_some_iff.1 hhead
    rw [hrest] at hgetLast hchars ⊢
    rcases List.eq_nil_or_concat' rest with rfl | ⟨middle, last', rfl⟩
    · exact .inl rfl
    · rw [← List.cons_append, List.getLast?_concat] at hgetLast
      obtain rfl := Option.some.inj hgetLast
      refine .inr ⟨middle, last', rfl, fun c hc => isLabelChar_iff.1 (hchars c ?_),
        isLabelEnd_iff.1 hlast⟩
      exact List.mem_cons_of_mem _ (List.mem_append_left _ hc)

/-- The requirements of a label hold of the labels up to the limit. -/
theorem forall_mem_labelRequirements {field value : String} {limit : Nat} :
    (∀ r ∈ labelRequirements field value limit, r.holds = true) ↔
      IsLabel value ∧ value.length ≤ limit := by
  have hany (found : Option Char) :
      found.any isLabelEnd = true ↔ ∃ c, found = some c ∧ isLabelEnd c = true := by
    cases found <;> simp
  have hall : (∀ r ∈ labelRequirements field value limit, r.holds = true) ↔
      value ≠ "" ∧ value.utf8ByteSize ≤ limit ∧ IsLabel value := by
    simp [labelRequirements, isLabel_iff, hany]
  rw [hall]
  constructor
  · rintro ⟨-, hbytes, hlabel⟩
    rw [utf8ByteSize_of_isLabelChar hlabel.isLabelChar] at hbytes
    exact ⟨hlabel, hbytes⟩
  · rintro ⟨hlabel, hlength⟩
    refine ⟨?_, ?_, hlabel⟩
    · rintro rfl
      obtain ⟨first, -, hsingle | ⟨middle, last, hlong, -⟩⟩ := hlabel
      · exact absurd hsingle (by simp)
      · exact absurd hlong (by simp)
    · rwa [utf8ByteSize_of_isLabelChar hlabel.isLabelChar]

end ServerManifests.Plan
