import ServerManifests.Proofs.Values.Reset

/-!
One layer twice in a row. An entry of a layer is settled in a mapping if the mapping has
the key with a value that takes in the entry's value without a change. Each entry of a
layer without nulls is settled after the layer was merged, so merging it again finds
nothing to do, and a value stays where it stands.
-/
namespace ServerManifests

open Yaml Value Values

namespace Yaml.Value

mutual

/-- Whether no mapping has a null, as far down as mappings are merged. -/
def lacksNulls : Value → Bool
  | .map entries => lacksNullsInEntries entries
  | _ => true

def lacksNullsInEntries : List (Value × Value) → Bool
  | [] => true
  | (_, value) :: rest => !value.isNull && value.lacksNulls && lacksNullsInEntries rest

end

theorem lacksNullsInEntries_iff {entries : Entries} :
    lacksNullsInEntries entries = true ↔
      ∀ e ∈ entries, e.2.isNull = false ∧ e.2.lacksNulls = true := by
  induction entries with
  | nil => simp [lacksNullsInEntries]
  | cons e rest ih => simp [lacksNullsInEntries, ih, and_assoc]

end Yaml.Value

namespace Values

/-- A mapping has the key of an entry, and its value there absorbs that of the entry. -/
def Settled (es : Entries) (e : Value × Value) : Prop :=
  ∃ present, es.find? e.1 = some present ∧ merge present e.2 = present

theorem mergeEntries_of_settled {es overlay : Entries} (hdistinct : es.Distinct)
    (hnulls : ∀ e ∈ overlay, e.2.isNull = false) (hsettled : ∀ e ∈ overlay, Settled es e) :
    mergeEntries es overlay = es := by
  induction overlay with
  | nil => exact mergeEntries_nil es
  | cons e rest ih =>
    obtain ⟨hnull, hnulls⟩ := List.forall_mem_cons.1 hnulls
    obtain ⟨⟨present, hfind, habsorbs⟩, hsettled⟩ := List.forall_mem_cons.1 hsettled
    have hentry : mergeEntry es e.1 e.2 = es := by
      unfold mergeEntry
      rw [hfind]
      dsimp only
      rw [if_neg (by simp [hnull]), habsorbs]
      exact hdistinct.replace_self hfind
    rw [mergeEntries_cons, hentry]
    exact ih hnulls hsettled

/-- After a layer each of its entries is settled, if one that is new absorbs itself and
one that is merged is absorbed by the result. -/
theorem settled_mergeEntries {base overlay : Entries} (hbase : base.Distinct)
    (hoverlay : overlay.Distinct) {e : Value × Value} (he : e ∈ overlay)
    (hnull : e.2.isNull = false) (hself : merge e.2 e.2 = e.2)
    (hmerged : ∀ present, base.find? e.1 = some present →
      merge (merge present e.2) e.2 = merge present e.2) :
    Settled (mergeEntries base overlay) e := by
  have hgiven : overlay.find? e.1 = some e.2 :=
    (Entries.find?_eq_some_iff hoverlay).2 ⟨e.1, he, agrees_self _⟩
  unfold Settled
  rw [find?_mergeEntries hbase hoverlay, hgiven]
  cases hpresent : base.find? e.1 with
  | none => exact ⟨e.2, rfl, hself⟩
  | some present =>
    refine ⟨merge present e.2, ?_, hmerged present hpresent⟩
    simp [combined, hnull]

theorem merge_merge {base overlay : Value} (hbase : base.WellFormed)
    (hoverlay : overlay.WellFormed) (hnulls : overlay.lacksNulls = true) :
    merge (merge base overlay) overlay = merge base overlay := by
  induction hoverlay generalizing base with
  | @node overlay here below ih =>
    by_cases hmap : ∃ overlays, overlay = .map overlays
    · obtain ⟨overlays, rfl⟩ := hmap
      have hentries := lacksNullsInEntries_iff.1 hnulls
      have hvalue (e : Value × Value) (he : e ∈ overlays) : e.2 ∈ (map overlays).children :=
        List.mem_append_right _ (List.mem_map_of_mem he)
      -- A value in the place of a null is the value, so this merges it with itself.
      have hself (e : Value × Value) (he : e ∈ overlays) : merge e.2 e.2 = e.2 := by
        have hscalar : Value.null.WellFormed := wellFormed_of_isScalar trivial
        have htwice := ih e.2 (hvalue e he) hscalar (hentries e he).2
        have hnull : merge .null e.2 = e.2 := merge_of_not_map fun entries heq => nomatch heq
        rwa [hnull] at htwice
      by_cases hbaseMap : ∃ entries, base = .map entries
      · obtain ⟨entries, rfl⟩ := hbaseMap
        rw [merge_map, merge_map]
        refine congrArg _ (mergeEntries_of_settled (distinct_mergeEntries hbase.here)
          (fun e he => (hentries e he).1) fun e he => ?_)
        refine settled_mergeEntries hbase.here here he (hentries e he).1 (hself e he) ?_
        intro present hpresent
        exact ih e.2 (hvalue e he) (hbase.find? hpresent) (hentries e he).2
      · rw [merge_of_not_map fun entries heq => hbaseMap ⟨entries, heq⟩, merge_map]
        refine congrArg _ (mergeEntries_of_settled here (fun e he => (hentries e he).1) ?_)
        intro e he
        exact ⟨e.2, (Entries.find?_eq_some_iff here).2 ⟨e.1, he, agrees_self _⟩, hself e he⟩
    · have hother : ∀ entries, overlay ≠ .map entries := fun entries heq => hmap ⟨entries, heq⟩
      rw [merge_overlay_not_map hother, merge_overlay_not_map hother]

end Values

namespace Layers

theorem wellFormed_withFile {layers layers' : Layers} {file : Except FileProblem String}
    (h : layers.merged.WellFormed) (hadd : layers.withFile file = .ok layers') :
    layers'.merged.WellFormed := by
  cases file with
  | error problem => cases hadd
  | ok source =>
    have hadded : (Layer.document source).addTo layers = .ok layers' := hadd
    exact wellFormed_addTo h hadded

/-- A document without nulls that was added can be added again without a change. -/
theorem withValue_withValue {layers layers' : Layers} {overlay : Value}
    (hlayers : layers.merged.WellFormed) (hoverlay : overlay.WellFormed)
    (hnulls : overlay.lacksNulls = true) (h : layers.withValue overlay = .ok layers') :
    layers'.withValue overlay = .ok layers' := by
  obtain ⟨hmerged, rfl | ⟨entries, rfl⟩⟩ := withValue_eq_ok h
  · rfl
  · have hmerged : layers'.merged = merge layers.merged (.map entries) := hmerged
    change Except.ok (Layers.mk (merge layers'.merged (.map entries))) = .ok layers'
    rw [hmerged, merge_merge hlayers hoverlay hnulls, ← hmerged]

variable {source : String} {overlay : Value}

theorem withFile_twice {layers : Layers} (hlayers : layers.merged.WellFormed)
    (hparse : Value.parse? source = some overlay) (hnulls : overlay.lacksNulls = true) :
    (layers.withFile (.ok source) >>= (·.withFile (.ok source))) =
      layers.withFile (.ok source) := by
  have hfile (layers : Layers) : layers.withFile (.ok source) = layers.withValue overlay := by
    change layers.withDocument source = _
    unfold withDocument
    rw [hparse]
  simp only [hfile]
  cases hadd : layers.withValue overlay with
  | error failure => rfl
  | ok layers' => exact withValue_withValue hlayers (parse?_wellFormed hparse) hnulls hadd

theorem foldlM_withFile_twice {start : Layers} (hstart : start.merged.WellFormed)
    (hparse : Value.parse? source = some overlay) (hnulls : overlay.lacksNulls = true)
    (before after : List (Except FileProblem String)) :
    (before ++ .ok source :: .ok source :: after).foldlM withFile start =
      (before ++ .ok source :: after).foldlM withFile start := by
  rw [List.foldlM_append, List.foldlM_append]
  cases hbefore : before.foldlM withFile start with
  | error failure => rfl
  | ok layers =>
    have hlayers : layers.merged.WellFormed :=
      of_foldlM_eq_ok (p := fun layers => layers.merged.WellFormed) hbefore hstart
        fun _ _ _ _ hwell hadd => wellFormed_withFile hwell hadd
    calc
      _ = (layers.withFile (.ok source) >>= (·.withFile (.ok source))) >>=
          fun layers => after.foldlM withFile layers := by
        change (List.foldlM withFile layers (.ok source :: .ok source :: after)) = _
        rw [List.foldlM_cons, bind_assoc]
        rfl
      _ = layers.withFile (.ok source) >>= fun layers => after.foldlM withFile layers := by
        rw [withFile_twice hlayers hparse hnulls]

end Layers

/-- Merging a layer without nulls a second time changes nothing, nor the place of an entry,
and so does listing its file a second time in a row. -/
theorem repeated_layer_changes_nothing (overlay : Value) (hoverlay : overlay.WellFormed)
    (hnulls : overlay.lacksNulls = true) :
    (∀ base : Value, base.WellFormed → merge (merge base overlay) overlay = merge base overlay) ∧
      ∀ (source : String) (before after : List (Except FileProblem String))
        (overrides : List String), Value.parse? source = some overlay →
        Configuration.load (before ++ .ok source :: .ok source :: after) overrides =
          Configuration.load (before ++ .ok source :: after) overrides := by
  refine ⟨fun base hbase => merge_merge hbase hoverlay hnulls, ?_⟩
  intro source before after overrides hparse
  unfold Configuration.load
  rw [Layers.foldlM_withFile_twice Layers.sound_defaults.wellFormed hparse hnulls]

/-- The null under a tag and the one in a list are not for a key of a merged mapping. -/
theorem repeated_layer_changes_nothing_of_tag :
    let source := "service: {port: 81}\nextra: !t {a: ~}\nimage: {tag: 2, more: [~]}\n"
    ∃ overlay, Value.parse? source = some overlay ∧ overlay.WellFormed ∧
      overlay.lacksNulls = true ∧
      merge (merge Layers.defaults.merged overlay) overlay = merge Layers.defaults.merged overlay ∧
      (Configuration.load [.ok source, .ok source] []).isOk = true ∧
      Configuration.load [.ok source, .ok source] [] = Configuration.load [.ok source] [] := by
  intro source
  have hparses : (Value.parse? source).any lacksNulls = true := by decide +kernel
  obtain ⟨overlay, hparse, hnulls⟩ := (Option.any_eq_true _ _).1 hparses
  have hoverlay := parse?_wellFormed hparse
  have hloads : (Configuration.load [.ok source, .ok source] []).isOk = true := by decide +kernel
  obtain ⟨hmerge, hload⟩ := repeated_layer_changes_nothing overlay hoverlay hnulls
  exact ⟨overlay, hparse, hoverlay, hnulls,
    hmerge Layers.defaults.merged Layers.sound_defaults.wellFormed, hloads,
    hload source [] [] [] hparse⟩

end ServerManifests
