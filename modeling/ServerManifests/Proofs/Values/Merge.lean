import ServerManifests.Proofs.Yaml.Tree
import ServerManifests.Values.Layers

/-!
Merging, key by key. The entries of an overlay are merged one at a time, and each
step changes its own key only; so the result at a key depends on what the two
sides have there and on nothing else.
-/
namespace ServerManifests.Values

open Yaml Value

/-- Merges one entry of an overlay. -/
def mergeEntry (base : Entries) (key value : Value) : Entries :=
  match base.find? key with
  | some present => if value.isNull then base.remove key else base.replace key (merge present value)
  | none => base ++ [(key, value)]

/-- What a key has after a merge, from what it had and what the overlay has. -/
def combined (present given : Option Value) : Option Value :=
  match given, present with
  | none, present => present
  | some value, none => some value
  | some value, some present => if value.isNull then none else some (merge present value)

theorem mergeEntries_nil (base : Entries) : mergeEntries base [] = base := by
  rw [mergeEntries]

theorem mergeEntries_cons (base rest : Entries) (key value : Value) :
    mergeEntries base ((key, value) :: rest) = mergeEntries (mergeEntry base key value) rest := by
  rw [mergeEntries]
  rfl

theorem merge_map (base overlay : Entries) :
    merge (.map base) (.map overlay) = .map (mergeEntries base overlay) := by
  rw [merge]

theorem merge_of_not_map {base overlay : Value} (h : ∀ entries, base ≠ .map entries) :
    merge base overlay = overlay := by
  cases overlay with
  | map entries =>
    cases base with
    | map present => exact absurd rfl (h present)
    | _ => rw [merge]; simp
  | _ => rw [merge]; simp

theorem merge_overlay_not_map {base overlay : Value} (h : ∀ entries, overlay ≠ .map entries) :
    merge base overlay = overlay := by
  cases overlay with
  | map entries => exact absurd rfl (h entries)
  | _ => rw [merge]; simp

/-- Only two mappings are merged; otherwise the overlay is what there is. -/
theorem merge_of_not_maps {base overlay : Value}
    (h : ¬∃ entries overlays, base = .map entries ∧ overlay = .map overlays) :
    merge base overlay = overlay := by
  by_cases hbase : ∃ entries, base = .map entries
  · obtain ⟨entries, rfl⟩ := hbase
    exact merge_overlay_not_map fun overlays hoverlay => h ⟨entries, overlays, rfl, hoverlay⟩
  · exact merge_of_not_map fun entries hentries => hbase ⟨entries, hentries⟩

theorem distinct_mergeEntry {base : Entries} (h : base.Distinct) (key value : Value) :
    (mergeEntry base key value).Distinct := by
  unfold mergeEntry
  cases hfind : base.find? key with
  | none => exact h.append_new hfind
  | some present =>
    dsimp only
    split
    · exact h.remove key
    · exact h.replace key _

theorem find?_mergeEntry {base : Entries} (h : base.Distinct) (key value key' : Value) :
    (mergeEntry base key value).find? key' =
      if key.agrees key' then combined (base.find? key) (some value) else base.find? key' := by
  unfold mergeEntry
  cases hfind : base.find? key with
  | none =>
    rw [Entries.find?_append, Entries.find?_cons]
    by_cases hkey : key.agrees key'
    · rw [if_pos hkey, if_pos hkey, ← Entries.find?_congr hkey, hfind]
      rfl
    · rw [if_neg hkey, if_neg hkey]
      exact Option.or_none
  | some present =>
    dsimp only
    by_cases hnull : value.isNull
    · rw [if_pos hnull, Entries.find?_remove h]
      simp [combined, hnull]
    · rw [if_neg hnull, Entries.find?_replace]
      by_cases hkey : key.agrees key'
      · simp [combined, hkey, hnull, ← Entries.find?_congr hkey, hfind]
      · simp [hkey]

theorem distinct_mergeEntries {base overlay : Entries} (h : base.Distinct) :
    (mergeEntries base overlay).Distinct := by
  induction overlay generalizing base with
  | nil => rwa [mergeEntries_nil]
  | cons e rest ih =>
    obtain ⟨key, value⟩ := e
    rw [mergeEntries_cons]
    exact ih (distinct_mergeEntry h key value)

/-- A merge decides each key on its own. -/
theorem find?_mergeEntries {base overlay : Entries} (hbase : base.Distinct)
    (hoverlay : overlay.Distinct) (key : Value) :
    (mergeEntries base overlay).find? key = combined (base.find? key) (overlay.find? key) := by
  induction overlay generalizing base with
  | nil => rw [mergeEntries_nil]; rfl
  | cons e rest ih =>
    obtain ⟨k, value⟩ := e
    have hrest : Entries.Distinct rest := (List.pairwise_cons.1 hoverlay).2
    rw [mergeEntries_cons, ih (distinct_mergeEntry hbase k value) hrest,
      find?_mergeEntry hbase, Entries.find?_cons]
    by_cases hkey : k.agrees key
    · have hnone : Entries.find? rest key = none := hoverlay.find?_rest hkey
      rw [if_pos hkey, if_pos hkey, hnone, Entries.find?_congr hkey]
      rfl
    · rw [if_neg hkey, if_neg hkey]

variable {p : Value → Prop}

private theorem forall_mem_mergeEntry {base : Entries} {key value : Value}
    (hbase : ∀ e ∈ base, p e.1 ∧ p e.2) (hkey : p key) (hvalue : p value)
    (hmerge : ∀ present, p present → p (merge present value)) :
    ∀ e ∈ mergeEntry base key value, p e.1 ∧ p e.2 := by
  intro e he
  unfold mergeEntry at he
  cases hfind : base.find? key with
  | none =>
    rw [hfind] at he
    rcases List.mem_append.1 he with he | he
    · exact hbase e he
    · obtain rfl := List.mem_singleton.1 he
      exact ⟨hkey, hvalue⟩
  | some present =>
    rw [hfind] at he
    dsimp only at he
    split at he
    · exact hbase e (Entries.mem_remove he)
    · obtain ⟨k, hpresent, -⟩ := Entries.mem_of_find?_eq_some hfind
      obtain ⟨e', he', hfst, hsnd⟩ := Entries.mem_replace he
      rw [hfst]
      refine ⟨(hbase e' he').1, ?_⟩
      rcases hsnd with hold | hnew
      · rw [hold]
        exact (hbase e' he').2
      · rw [hnew]
        exact hmerge present (hbase _ hpresent).2

private theorem forall_mem_mergeEntries {base overlay : Entries}
    (hbase : ∀ e ∈ base, p e.1 ∧ p e.2)
    (hoverlay : ∀ e ∈ overlay, p e.1 ∧ p e.2 ∧ ∀ present, p present → p (merge present e.2)) :
    ∀ e ∈ mergeEntries base overlay, p e.1 ∧ p e.2 := by
  induction overlay generalizing base with
  | nil => rwa [mergeEntries_nil]
  | cons e rest ih =>
    obtain ⟨key, value⟩ := e
    obtain ⟨hkey, hvalue, hmerge⟩ := hoverlay (key, value) List.mem_cons_self
    rw [mergeEntries_cons]
    exact ih (forall_mem_mergeEntry hbase hkey hvalue hmerge) fun e he =>
      hoverlay e (List.mem_cons_of_mem _ he)

/-- What holds everywhere in two trees holds everywhere in their merge, if merging
mappings keeps it. -/
theorem everywhere_merge
    (hmap : ∀ {base overlay : Entries}, p (.map base) → p (.map overlay) →
      p (.map (mergeEntries base overlay)))
    {base overlay : Value} (hbase : base.Everywhere p) (hoverlay : overlay.Everywhere p) :
    (merge base overlay).Everywhere p := by
  induction hoverlay generalizing base with
  | @node overlay here below ih =>
    by_cases hmaps : ∃ entries overlays, base = .map entries ∧ overlay = .map overlays
    · obtain ⟨entries, overlays, rfl, rfl⟩ := hmaps
      rw [merge_map, everywhere_map_iff]
      refine ⟨hmap hbase.here here, ?_⟩
      refine forall_mem_mergeEntries (p := Everywhere p) (everywhere_map_iff.1 hbase).2 ?_
      intro e he
      have hkey : e.1 ∈ (map overlays).children :=
        List.mem_append_left _ (List.mem_map_of_mem he)
      have hvalue : e.2 ∈ (map overlays).children :=
        List.mem_append_right _ (List.mem_map_of_mem he)
      exact ⟨below _ hkey, below _ hvalue, fun _ hpresent => ih _ hvalue hpresent⟩
    · rw [merge_of_not_maps hmaps]
      exact .node here below

theorem wellFormed_merge {base overlay : Value} (hbase : base.WellFormed)
    (hoverlay : overlay.WellFormed) : (merge base overlay).WellFormed :=
  everywhere_merge (fun hbase _ => distinct_mergeEntries hbase) hbase hoverlay

theorem noTag_merge {base overlay : Value} (hbase : base.Everywhere NoTag)
    (hoverlay : overlay.Everywhere NoTag) : (merge base overlay).Everywhere NoTag :=
  everywhere_merge (fun _ _ => trivial) hbase hoverlay

end ServerManifests.Values
