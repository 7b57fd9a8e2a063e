import ServerManifests.Proofs.Values.Atomicity
import ServerManifests.Proofs.Values.Layers

/-!
Overrides as values files. Where no tag is in the way, an override that can be carried
out does what a document does that has the value at the end of the path and nothing
else: it drops what a null drops, keeps a null that drops nothing, makes the parents that
are missing and leaves all entries in the same order.
-/
namespace ServerManifests.Values

open Yaml Value

theorem assignAt?_eq_some_iff {value root root' : Value} {path : List String} (hpath : path ≠ [])
    (hvalue : value.IsScalar) (hroot : root.Everywhere NoTag) :
    assignAt? value path root = some root' ↔
      ¬Blocked path root ∧ root' = merge root (nest path value) := by
  constructor
  · intro h
    refine ⟨fun hblocked => ?_, assignAt?_eq_merge hvalue hroot h⟩
    rw [(assignAt?_eq_none_iff hpath).2 hblocked] at h
    cases h
  · rintro ⟨hopen, rfl⟩
    have hassigned : assignAt? value path root ≠ none := fun hnone =>
      hopen ((assignAt?_eq_none_iff hpath).1 hnone)
    obtain ⟨root', hroot'⟩ := Option.ne_none_iff_exists'.1 hassigned
    rw [hroot', assignAt?_eq_merge hvalue hroot hroot']

/-- An override of a tree without tags is accepted if it is an assignment, all its keys
have a name and nothing blocks its path; then the tree is merged with the nested document
of the path and the value, which a values file with this document does as well. -/
theorem override_means_document (root root' : Value) (expression : String)
    (hroot : root.hasTag = false) :
    (applyOverride root expression = .ok root' ↔
      ∃ path raw, expression = path ++ "=" ++ raw ∧ '=' ∉ path.toList ∧ "" ∉ pathKeys path ∧
        ¬Blocked (pathKeys path) root ∧
        root' = merge root (nest (pathKeys path) (scalarOf raw))) ∧
    ∀ (source : String) (document : Value), applyOverride root expression = .ok root' →
      overrideLayer? expression = some document → Value.parse? source = some document →
      (Layers.mk root).withDocument source = .ok ⟨root'⟩ := by
  have hplain := everywhere_noTag hroot
  constructor
  · rw [applyOverride_eq_ok_iff]
    constructor
    · rintro ⟨path, raw, hsplit, hnamed, hassign⟩
      obtain ⟨hexpression, hpath⟩ := splitAssignment?_eq_some_iff.1 hsplit
      obtain ⟨hopen, hmerge⟩ :=
        (assignAt?_eq_some_iff (pathKeys_ne_nil path) (scalarOf_isScalar raw) hplain).1 hassign
      refine ⟨path, raw, hexpression, hpath, fun hempty => ?_, hopen, hmerge⟩
      rw [any_isEmpty_iff.2 hempty] at hnamed
      cases hnamed
    · rintro ⟨path, raw, hexpression, hpath, hnamed, hopen, hmerge⟩
      refine ⟨path, raw, splitAssignment?_eq_some_iff.2 ⟨hexpression, hpath⟩, ?_, ?_⟩
      · exact Bool.eq_false_iff.2 fun hempty => hnamed (any_isEmpty_iff.1 hempty)
      · exact (assignAt?_eq_some_iff (pathKeys_ne_nil path) (scalarOf_isScalar raw) hplain).2
          ⟨hopen, hmerge⟩
  · intro source document haccepted hlayer hparse
    obtain ⟨layer, hlayer', hmerge, ⟨entries, rfl⟩, -, -⟩ := applyOverride_eq_merge hplain haccepted
    obtain rfl : document = .map entries := Option.some.inj (hlayer.symm.trans hlayer')
    refine Layers.withDocument_eq_ok_iff.2 ⟨_, hparse, ?_⟩
    rw [hmerge]
    rfl

/-- The null drops an entry that stands before others, of which the last one moves up. -/
theorem override_means_document_of_null :
    let root : Value := .map [(.text "a", .map [(.text "x", .int 1), (.text "y", .int 2),
      (.text "z", .int 3)])]
    let root' : Value := .map [(.text "a", .map [(.text "z", .int 3), (.text "y", .int 2)])]
    root.hasTag = false ∧ applyOverride root "a.x=null" = .ok root' ∧
      ∃ path raw, "a.x=null" = path ++ "=" ++ raw ∧ '=' ∉ path.toList ∧ "" ∉ pathKeys path ∧
        ¬Blocked (pathKeys path) root ∧
        root' = merge root (nest (pathKeys path) (scalarOf raw)) := by
  intro root root'
  have hplain : root.hasTag = false := rfl
  have hkeys : pathKeys "a.x" = ["a", "x"] := by decide +kernel
  have haccepted : applyOverride root "a.x=null" = .ok root' := by
    refine applyOverride_eq_ok_iff.2 ⟨"a.x", "null", by decide +kernel, by decide +kernel, ?_⟩
    rw [hkeys, scalarOf_null]
    rfl
  exact ⟨hplain, haccepted, (override_means_document root root' "a.x=null" hplain).1.1 haccepted⟩

end ServerManifests.Values
