import Mathlib.Data.List.DropRight
import Mathlib.Data.List.Infix
import ServerManifests.Proofs.Plan.Labels
import ServerManifests.Proofs.Render.References

/-!
Names of resources as labels. What is cut off a name is all that stands after its first
63 characters and the dashes before that, so the rest is a label exactly if the name
begins with a letter or digit and has the characters of a label up to the cut. The name
of a release is a label, but overrides are not checked: the full name is a label exactly
if the part of them that it keeps can stand in one.
-/
namespace ServerManifests.Plan

open Manifest

/-- A cut name and the dashes in front of the cut are the first characters of the name. -/
theorem exists_dashes_truncateName (name : String) :
    ∃ dashes, name.toList.take maxNameLength = (truncateName name).toList ++ dashes ∧
      ∀ c ∈ dashes, c = '-' := by
  refine ⟨(name.toList.take maxNameLength).rtakeWhile (· = '-'), ?_, ?_⟩
  · rw [truncateName, String.toList_ofList]
    exact List.rdropWhile_append_rtakeWhile.symm
  · intro c hc
    simpa using List.mem_rtakeWhile_imp hc

theorem length_truncateName_le (name : String) :
    (truncateName name).length ≤ maxNameLength := by
  obtain ⟨dashes, hcut, -⟩ := exists_dashes_truncateName name
  have hlength := congrArg List.length hcut
  simp only [List.length_append, List.length_take, String.length_toList] at hlength
  omega

theorem getLast?_truncateName_ne (name : String) :
    (truncateName name).toList.getLast? ≠ some '-' := by
  rw [truncateName, String.toList_ofList, Text.dropEndWhile, List.getLast?_reverse]
  intro hdash
  have hkept := List.head?_dropWhile_not (· = '-') (name.toList.take maxNameLength).reverse
  rw [hdash] at hkept
  exact absurd hkept (by decide)

/-- Cutting keeps the first character unless it is a dash. -/
theorem head?_truncateName {name : String} {first : Char} (hne : first ≠ '-') :
    (truncateName name).toList.head? = some first ↔ name.toList.head? = some first := by
  obtain ⟨dashes, hcut, hdashes⟩ := exists_dashes_truncateName name
  have hhead : name.toList.head? = (name.toList.take maxNameLength).head? := by
    rw [List.head?_take, if_neg (by decide)]
  rw [hhead, hcut]
  cases hkept : (truncateName name).toList with
  | nil =>
    refine iff_of_false (fun h => nomatch h) fun hfirst => hne (hdashes first ?_)
    exact List.mem_of_head? hfirst
  | cons c rest => rfl

/-- What is cut off does not count for a label. -/
theorem isLabel_truncateName_iff {name : String} :
    IsLabel (truncateName name) ↔
      (∃ first, name.toList.head? = some first ∧ IsLetterOrDigit first) ∧
        ∀ c ∈ name.toList.take maxNameLength, IsLetterOrDigit c ∨ c = '-' := by
  have hdash : ¬ IsLetterOrDigit '-' := by decide
  have hfirst (c : Char) (hc : IsLetterOrDigit c) : c ≠ '-' := fun h => hdash (h ▸ hc)
  obtain ⟨dashes, hcut, hdashes⟩ := exists_dashes_truncateName name
  rw [isLabel_iff, hcut]
  constructor
  · rintro ⟨hchars, ⟨first, hhead, hend⟩, -⟩
    have hend := isLabelEnd_iff.1 hend
    refine ⟨⟨first, (head?_truncateName (hfirst first hend)).1 hhead, hend⟩, fun c hc => ?_⟩
    rcases List.mem_append.1 hc with hc | hc
    · exact isLabelChar_iff.1 (hchars c hc)
    · exact .inr (hdashes c hc)
  · rintro ⟨⟨first, hhead, hletter⟩, hchars⟩
    have hhead := (head?_truncateName (hfirst first hletter)).2 hhead
    have hkept (c : Char) (hc : c ∈ (truncateName name).toList) :
        IsLetterOrDigit c ∨ c = '-' := hchars c (List.mem_append_left _ hc)
    refine ⟨fun c hc => isLabelChar_iff.2 (hkept c hc), ?_, ?_⟩
    · exact ⟨first, hhead, isLabelEnd_iff.2 hletter⟩
    · have hne : (truncateName name).toList ≠ [] := by
        intro hnil
        rw [hnil] at hhead
        exact nomatch hhead
      have hlast := List.getLast?_eq_some_getLast hne
      refine ⟨_, hlast, isLabelEnd_iff.2 ?_⟩
      rcases hkept _ (List.getLast_mem hne) with hletter | heq
      · exact hletter
      · exact absurd (heq ▸ hlast) (getLast?_truncateName_ne name)

theorem hasInfix_iff {part cs : List Char} : hasInfix part cs = true ↔ part <:+: cs := by
  induction cs with
  | nil => simp [hasInfix]
  | cons c rest ih =>
    rw [hasInfix, Bool.or_eq_true, List.isPrefixOf_iff_prefix, ih, List.infix_cons_iff]

/-- The full name before it is cut. -/
def wholeName (config : Configuration) (release : Release) : String :=
  match nonEmpty config.fullnameOverride with
  | some name => name
  | none =>
    let base := baseName config release
    if hasInfix base.toList release.name.toList then release.name else release.name ++ "-" ++ base

theorem fullname_eq_truncateName (config : Configuration) (release : Release) :
    fullname config release = truncateName (wholeName config release) := by
  unfold fullname wholeName
  cases nonEmpty config.fullnameOverride with
  | some name => rfl
  | none => exact (apply_ite truncateName _ _ _).symm

/-- The part of the overrides that a full name keeps can stand in a label. Of a full name
it is the whole beginning, and of a name what fits behind the name of the release. -/
def OverridesFit (config : Configuration) (release : Release) : Prop :=
  match nonEmpty config.fullnameOverride with
  | some name =>
    (∃ first, name.toList.head? = some first ∧ IsLetterOrDigit first) ∧
      ∀ c ∈ name.toList.take maxNameLength, IsLetterOrDigit c ∨ c = '-'
  | none =>
    ∀ c ∈ (baseName config release).toList.take (maxNameLength - 1 - release.name.length),
      IsLetterOrDigit c ∨ c = '-'

theorem isLabel_fullname_iff {config : Configuration} {release : Release}
    (hname : IsLabel release.name) (hlength : release.name.length ≤ maxReleaseNameLength) :
    IsLabel (fullname config release) ↔ OverridesFit config release := by
  have hchars (c : Char) (hc : c ∈ release.name.toList) : IsLetterOrDigit c ∨ c = '-' :=
    isLabelChar_iff.1 (hname.isLabelChar c hc)
  obtain ⟨first, hhead, hend⟩ := (isLabel_iff.1 hname).2.1
  have hletter := isLabelEnd_iff.1 hend
  rw [fullname_eq_truncateName, isLabel_truncateName_iff]
  unfold wholeName OverridesFit
  cases nonEmpty config.fullnameOverride with
  | some name => rfl
  | none =>
    dsimp only
    split
    · next hinfix =>
      -- The name of the release has the base in it, so both sides hold.
      have hpart := (hasInfix_iff.1 hinfix).subset
      refine iff_of_true ⟨⟨first, hhead, hletter⟩, ?_⟩ ?_
      · exact fun c hc => hchars c (List.mem_of_mem_take hc)
      · exact fun c hc => hchars c (hpart (List.mem_of_mem_take hc))
    · have htake : (release.name ++ "-" ++ baseName config release).toList.take maxNameLength =
          release.name.toList ++ '-' ::
            (baseName config release).toList.take (maxNameLength - 1 - release.name.length) := by
        have hbound : release.name.toList.length ≤ maxNameLength := by
          rw [String.length_toList]
          exact Nat.le_trans hlength (by decide)
        have hrest : maxNameLength - release.name.length =
            maxNameLength - 1 - release.name.length + 1 := by
          have : release.name.length ≤ 53 := hlength
          unfold maxNameLength
          omega
        rw [String.toList_append, String.toList_append, List.append_assoc, List.take_append,
          List.take_of_length_le hbound, String.length_toList, hrest]
        rfl
      have hhead' : (release.name ++ "-" ++ baseName config release).toList.head? = some first := by
        rw [String.toList_append, String.toList_append, List.append_assoc, List.head?_append, hhead]
        rfl
      rw [htake, hhead', List.forall_mem_append, List.forall_mem_cons]
      constructor
      · exact fun h => h.2.2.2
      · exact fun h => ⟨⟨first, rfl, hletter⟩, hchars, .inr rfl, h⟩

theorem checkRelease_eq_ok_iff {release : Release} :
    checkRelease release = .ok () ↔
      (IsLabel release.name ∧ release.name.length ≤ maxReleaseNameLength) ∧
        IsLabel release.targetNamespace ∧
          release.targetNamespace.length ≤ maxNamespaceLength := by
  unfold checkRelease
  rw [checkLabel_eq_verdict, checkLabel_eq_verdict, ← verdict_append, verdict_eq_ok_iff,
    List.forall_mem_append, forall_mem_labelRequirements, forall_mem_labelRequirements]

/-- The full name of a plan is the name of all its manifests but the service account's. It
is no longer than a label and does not end with a dash, and it is a label exactly if the
overrides fit. -/
theorem resolve_fullname_isLabel_iff (config : Configuration) (release : Release)
    (plan : DeploymentPlan) (h : config.resolve release = .ok plan) :
    plan.names.fullname.length ≤ 63 ∧ plan.names.fullname.toList.getLast? ≠ some '-' ∧
      (IsLabel plan.names.fullname ↔ OverridesFit config release) ∧
      ∀ m ∈ (Bundle.of plan).manifests, m.1 ≠ .serviceAccount →
        m.2.at? metadataName = some (.text plan.names.fullname) := by
  obtain ⟨hrelease, -, env, -, rfl⟩ := resolve_eq_ok_iff.1 h
  obtain ⟨⟨hname, hlength⟩, -⟩ := checkRelease_eq_ok_iff.1 hrelease
  refine ⟨?_, ?_, isLabel_fullname_iff hname hlength, ?_⟩
  · change (fullname config release).length ≤ maxNameLength
    rw [fullname_eq_truncateName]
    exact length_truncateName_le _
  · change (fullname config release).toList.getLast? ≠ some '-'
    rw [fullname_eq_truncateName]
    exact getLast?_truncateName_ne _
  · intro m hm hkind
    obtain ⟨apiVersion, metadata, more, hjson, -, -, hmetadata⟩ := forall_mem_manifests_of _ m hm
    rw [hjson, metadataName, at?_metadata, Metadata.at?_name, hmetadata, if_neg hkind]

/-- A full name of dashes only leaves nothing, which is no label. -/
theorem resolve_fullname_isLabel_iff_of_dashes :
    ∃ plan, Configuration.resolve { fullnameOverride := some "---" } {} = .ok plan ∧
      plan.names.fullname = "" ∧ ¬ IsLabel plan.names.fullname := by
  obtain ⟨-, -, hfit, -⟩ :=
    resolve_fullname_isLabel_iff { fullnameOverride := some "---" } {} _ rfl
  refine ⟨_, rfl, by decide +kernel, fun hlabel => ?_⟩
  obtain ⟨⟨first, hhead, hfirst⟩, -⟩ := hfit.1 hlabel
  obtain rfl : '-' = first := Option.some.inj hhead
  exact absurd hfirst (by decide)

end ServerManifests.Plan
