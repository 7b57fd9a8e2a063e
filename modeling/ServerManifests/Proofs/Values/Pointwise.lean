import ServerManifests.Proofs.Values.Merge

/-!
Merging as a law. What a key has after a merge is said by what it has on the two sides,
and for a key that both sides have with values to merge the law holds again, one level
down. The law does not say how a mapping is walked or where an entry stands in it.
-/
namespace ServerManifests.Values

open Yaml Value

mutual

/-- A tree, another one on top of it, and what the two give. Mappings are merged key by
key; if one of the two is no mapping, the one on top replaces the other. -/
inductive Merges : Value → Value → Value → Prop
  | mappings {base overlay merged : Entries} (distinct : merged.Distinct)
      (keys : ∀ e ∈ merged, e.1 ∈ base.map Prod.fst ∨ e.1 ∈ overlay.map Prod.fst)
      (each : ∀ key, MergesAt (base.find? key) (overlay.find? key) (merged.find? key)) :
      Merges (.map base) (.map overlay) (.map merged)
  | replaced {base overlay : Value}
      (other : ¬∃ entries overlays, base = .map entries ∧ overlay = .map overlays) :
      Merges base overlay overlay

/-- What a key has in a mapping, in the one on top of it and after the merge. A null
drops what is there; a value for a new key is taken as it is, nulls and all. -/
inductive MergesAt : Option Value → Option Value → Option Value → Prop
  | unmentioned (present : Option Value) : MergesAt present none present
  | added (given : Value) : MergesAt none (some given) (some given)
  | dropped {present given : Value} (null : given.isNull = true) :
      MergesAt (some present) (some given) none
  | merged {present given result : Value} (kept : given.isNull = false)
      (below : Merges present given result) : MergesAt (some present) (some given) (some result)

end

theorem keys_mergeEntry {base : Entries} {key value : Value} {e : Value × Value}
    (h : e ∈ mergeEntry base key value) : e.1 ∈ base.map Prod.fst ∨ e.1 = key := by
  unfold mergeEntry at h
  split at h
  · split at h
    · exact .inl (List.mem_map_of_mem (Entries.mem_remove h))
    · obtain ⟨e', he', hkey, -⟩ := Entries.mem_replace h
      rw [hkey]
      exact .inl (List.mem_map_of_mem he')
  · rcases List.mem_append.1 h with h | h
    · exact .inl (List.mem_map_of_mem h)
    · exact .inr (congrArg Prod.fst (List.mem_singleton.1 h))

/-- A merge has no keys but those of the two sides. -/
theorem keys_mergeEntries {base overlay : Entries} {e : Value × Value}
    (h : e ∈ mergeEntries base overlay) :
    e.1 ∈ base.map Prod.fst ∨ e.1 ∈ overlay.map Prod.fst := by
  induction overlay generalizing base with
  | nil =>
    rw [mergeEntries_nil] at h
    exact .inl (List.mem_map_of_mem h)
  | cons first rest ih =>
    obtain ⟨key, value⟩ := first
    rw [mergeEntries_cons] at h
    rcases ih h with hbase | hrest
    · obtain ⟨e', he', hkey⟩ := List.mem_map.1 hbase
      rcases keys_mergeEntry he' with hold | hnew
      · exact .inl (hkey ▸ hold)
      · exact .inr (List.mem_cons.2 (.inl (hkey.symm.trans hnew)))
    · exact .inr (List.mem_cons_of_mem _ hrest)

theorem merges_merge {base overlay : Value} (hbase : base.WellFormed)
    (hoverlay : overlay.WellFormed) : Merges base overlay (merge base overlay) := by
  induction hoverlay generalizing base with
  | @node overlay here below ih =>
    by_cases hmaps : ∃ entries overlays, base = .map entries ∧ overlay = .map overlays
    · obtain ⟨entries, overlays, rfl, rfl⟩ := hmaps
      rw [merge_map]
      refine .mappings (distinct_mergeEntries hbase.here) (fun e => keys_mergeEntries) fun key => ?_
      rw [find?_mergeEntries hbase.here here]
      cases hgiven : Entries.find? overlays key with
      | none => exact .unmentioned _
      | some given =>
        cases hpresent : Entries.find? entries key with
        | none => exact .added given
        | some present =>
          by_cases hnull : given.isNull
          · simpa [combined, hnull] using MergesAt.dropped hnull
          · have hmerges := ih given (mem_children_of_find? hgiven)
              (Everywhere.find? hbase hpresent)
            simpa [combined, hnull] using MergesAt.merged (Bool.eq_false_iff.2 hnull) hmerges
    · rw [merge_of_not_maps hmaps]
      exact .replaced hmaps

/-- A merge obeys the law at every depth, and below a key that both sides have it is the
merge of what they have there. -/
theorem merge_obeys_law (base overlay : Value) (hbase : base.WellFormed)
    (hoverlay : overlay.WellFormed) :
    Merges base overlay (merge base overlay) ∧
    ∀ entries overlays merged : Entries, base = .map entries → overlay = .map overlays →
      merge base overlay = .map merged → ∀ key present given : Value,
        entries.find? key = some present → overlays.find? key = some given →
        given.isNull = false → merged.find? key = some (merge present given) := by
  refine ⟨merges_merge hbase hoverlay, ?_⟩
  rintro entries overlays merged rfl rfl hmerge key present given hpresent hgiven hnull
  rw [merge_map] at hmerge
  obtain rfl := Value.map.inj hmerge
  rw [find?_mergeEntries hbase.here hoverlay.here, hpresent, hgiven]
  simp [combined, hnull]

/-- The null for `x` is under a tag, the one for `b` drops an entry before the last, and
the one in `d` comes with a new key. -/
theorem merge_obeys_law_of_nulls :
    let base : Value := .map [(.text "a", .map [(.text "x", .int 1), (.text "y", .int 2)]),
      (.text "b", .int 3), (.text "c", .int 4)]
    let overlay : Value := .map [(.text "a", .map [(.text "x", .tagged "t" .null)]),
      (.text "b", .null), (.text "d", .map [(.text "e", .null)])]
    base.WellFormed ∧ overlay.WellFormed ∧ Merges base overlay (.map
      [(.text "a", .map [(.text "y", .int 2)]), (.text "c", .int 4),
        (.text "d", .map [(.text "e", .null)])]) := by
  intro base overlay
  have hbase : base.WellFormed := by decide
  have hoverlay : overlay.WellFormed := by decide
  exact ⟨hbase, hoverlay, (merge_obeys_law base overlay hbase hoverlay).1⟩

end ServerManifests.Values
