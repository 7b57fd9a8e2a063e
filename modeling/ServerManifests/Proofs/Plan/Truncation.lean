import ServerManifests.Proofs.Plan.Names

/-!
A cut name as a choice among the beginnings of a name. Of those that are no longer than
a label and do not end with a dash it is the longest, and it begins with all the others.
So a name is cut to itself exactly if it is such a beginning, and to nothing exactly if
it has nothing but dashes before the cut.
-/
namespace ServerManifests.Plan

/-- A beginning of a name that has the length of a label and that no dash ends. -/
structure IsCut (name part : String) : Prop where
  starts : part.toList <+: name.toList
  fits : part.length ≤ 63
  ends : part.toList.getLast? ≠ some '-'

/-- A cut that no other one is longer than. -/
def IsLongestCut (name part : String) : Prop :=
  IsCut name part ∧ ∀ other, IsCut name other → other.length ≤ part.length

theorem isCut_truncateName (name : String) : IsCut name (truncateName name) where
  starts := by
    obtain ⟨dashes, hcut, -⟩ := exists_dashes_truncateName name
    exact (hcut ▸ List.prefix_append _ _).trans (List.take_prefix ..)
  fits := length_truncateName_le name
  ends := getLast?_truncateName_ne name

/-- Every cut is part of the cut name: what the cut name leaves out of the first 63
characters are dashes, with which no cut ends. -/
theorem IsCut.prefix_truncateName {name part : String} (h : IsCut name part) :
    part.toList <+: (truncateName name).toList := by
  obtain ⟨dashes, hcut, hdashes⟩ := exists_dashes_truncateName name
  have hpart : part.toList <+: (truncateName name).toList ++ dashes := by
    rw [← hcut, List.prefix_take_iff, String.length_toList]
    exact ⟨h.starts, h.fits⟩
  rcases List.prefix_or_prefix_of_prefix hpart (List.prefix_append _ _) with hwithin | hbeyond
  · exact hwithin
  · obtain ⟨more, hmore⟩ := hbeyond
    rw [← hmore, List.prefix_append_right_inj] at hpart
    cases hlast : more.getLast? with
    | none =>
      rw [List.getLast?_eq_none_iff] at hlast
      rw [← hmore, hlast, List.append_nil]
    | some last =>
      have hdash : last = '-' := hdashes last (hpart.subset (List.mem_of_getLast? hlast))
      refine absurd ?_ h.ends
      rw [← hmore, List.getLast?_append, hlast, hdash, Option.some_or]

theorem IsCut.length_le {name part : String} (h : IsCut name part) :
    part.length ≤ (truncateName name).length := by
  rw [← String.length_toList, ← String.length_toList]
  exact h.prefix_truncateName.length_le

theorem isLongestCut_iff {name part : String} :
    IsLongestCut name part ↔ part = truncateName name := by
  constructor
  · rintro ⟨hcut, hlongest⟩
    have hlength := hlongest _ (isCut_truncateName name)
    rw [← String.length_toList, ← String.length_toList] at hlength
    exact String.toList_inj.1 (hcut.prefix_truncateName.eq_of_length_le hlength)
  · rintro rfl
    exact ⟨isCut_truncateName name, fun other hother => hother.length_le⟩

theorem truncateName_eq_self_iff {name : String} :
    truncateName name = name ↔ name.length ≤ 63 ∧ name.toList.getLast? ≠ some '-' := by
  constructor
  · intro h
    exact h ▸ ⟨(isCut_truncateName name).fits, (isCut_truncateName name).ends⟩
  · rintro ⟨hlength, hlast⟩
    have hwhole : IsCut name name := ⟨List.prefix_rfl, hlength, hlast⟩
    have hstarts := (isCut_truncateName name).starts
    exact String.toList_inj.1 (hstarts.eq_of_length_le hwhole.prefix_truncateName.length_le)

theorem truncateName_eq_empty_iff {name : String} :
    truncateName name = "" ↔ ∀ c ∈ name.toList.take 63, c = '-' := by
  rw [truncateName, ← String.toList_inj, String.toList_ofList]
  change Text.dropEndWhile _ _ = [] ↔ _
  rw [Text.dropEndWhile_eq_nil_iff]
  simp [maxNameLength]

/-- Cutting gives the one longest beginning that can be a name. It changes exactly the
names that are none, a second time nothing, and leaves nothing of dashes only. -/
theorem truncateName_longest (name : String) :
    (∀ part, IsLongestCut name part ↔ part = truncateName name) ∧
      truncateName (truncateName name) = truncateName name ∧
      (truncateName name = name ↔ name.length ≤ 63 ∧ name.toList.getLast? ≠ some '-') ∧
      (truncateName name = "" ↔ ∀ c ∈ name.toList.take 63, c = '-') := by
  have hcut := isCut_truncateName name
  exact ⟨fun part => isLongestCut_iff, truncateName_eq_self_iff.2 ⟨hcut.fits, hcut.ends⟩,
    truncateName_eq_self_iff, truncateName_eq_empty_iff⟩

end ServerManifests.Plan
