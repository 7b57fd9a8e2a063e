import ServerManifests.Proofs.Configuration.Order
import ServerManifests.Proofs.Values.Walk

/-!
The order of entries, from documents to the configuration. A merge and an override
decide each key on its own, so on similar trees they do similar things, in whatever
order an earlier removal left the entries; and in the end a configuration is read from
similar trees alike.
-/
namespace ServerManifests

open Yaml Value Values

namespace Values

variable {base base' overlay overlay' root root' : Value} {es es' : Entries}

theorem similar_combined {present present' given given' : Option Value}
    (hpresent : Option.Rel Value.Similar present present')
    (hgiven : Option.Rel Value.Similar given given')
    (hmerge : ∀ a a' b b', present = some a → present' = some a' → given = some b →
      given' = some b' → (merge a b).Similar (merge a' b')) :
    Option.Rel Value.Similar (combined present given) (combined present' given') := by
  cases hgiven with
  | none => exact hpresent
  | @some b b' hgiven =>
    cases hpresent with
    | none => exact .some hgiven
    | @some a a' hpresent =>
      unfold combined
      dsimp only
      rw [hgiven.isNull_eq]
      split
      · exact .none
      · exact .some (hmerge a a' b b' rfl rfl rfl rfl)

/-- Similar trees on top of similar ones make similar ones. -/
theorem similar_merge (hbase : base.WellFormed) (hbase' : base'.WellFormed)
    (hoverlay : overlay.WellFormed) (hoverlay' : overlay'.WellFormed) (h : base.Similar base')
    (hsimilar : overlay.Similar overlay') :
    (merge base overlay).Similar (merge base' overlay') := by
  induction hsimilar generalizing base base' with
  | scalar hscalar =>
    rw [merge_overlay_not_map (not_map_of_isScalar hscalar),
      merge_overlay_not_map (not_map_of_isScalar hscalar)]
    exact .scalar hscalar
  | list length each =>
    rw [merge_overlay_not_map (by simp), merge_overlay_not_map (by simp)]
    exact .list length each
  | tagged content =>
    rw [merge_overlay_not_map (by simp), merge_overlay_not_map (by simp)]
    exact .tagged content
  | @map overlays overlays' keys each ih =>
    by_cases hmap : ∃ entries, base = .map entries
    · obtain ⟨entries, rfl⟩ := hmap
      obtain ⟨entries', rfl, hentries⟩ := h.exists_map rfl
      rw [merge_map, merge_map]
      refine similar_map_iff.2 fun key => ?_
      rw [find?_mergeEntries hbase.here hoverlay.here,
        find?_mergeEntries hbase'.here hoverlay'.here]
      refine similar_combined (similar_map_iff.1 h key) (similar_map_iff.1 (.map keys each) key) ?_
      intro a a' b b' ha ha' hb hb'
      obtain ⟨present, hpresent, hsimilar⟩ := exists_of_optionRel (similar_map_iff.1 h key) ha
      obtain rfl := Option.some.inj (ha'.symm.trans hpresent)
      exact ih key b b' hb hb' (hbase.find? ha) (hbase'.find? ha') (hoverlay.find? hb)
        (hoverlay'.find? hb') hsimilar
    · have hmap' : ∀ entries, base' ≠ .map entries := by
        rintro entries rfl
        obtain ⟨entries', hentries', -⟩ := h.symm.exists_map rfl
        exact hmap ⟨entries', hentries'⟩
      rw [merge_of_not_map fun entries hentries => hmap ⟨entries, hentries⟩,
        merge_of_not_map hmap']
      exact .map keys each

/-- A path is blocked in similar trees alike. -/
theorem blocked_of_similar {path : List String} (h : root.Similar root')
    (hblocked : Blocked path root) : Blocked path root' := by
  induction path generalizing root root' with
  | nil => exact absurd hblocked (not_blocked_nil root)
  | cons key rest ih =>
    rcases blocked_cons_iff.1 hblocked with hroot | ⟨es, child, hes, hchild, hblocked⟩
    · refine blocked_cons_iff.2 (.inl fun es' hes' => ?_)
      obtain ⟨es, hes, -⟩ := h.symm.untagged.exists_map hes'
      exact hroot es hes
    · obtain ⟨es', hes', hsimilar⟩ := h.untagged.exists_map hes
      obtain ⟨child', hchild', hbelow⟩ :=
        exists_of_optionRel (similar_map_iff.1 hsimilar (.text key)) hchild
      exact blocked_cons_iff.2 (.inr ⟨es', child', hes', hchild', ih hbelow hblocked⟩)

theorem fault_of_similar {expression : String} {error : OverrideError} (h : root.Similar root')
    (hfault : Fault root expression error) : Fault root' expression error := by
  cases hfault with
  | noAssignment missing => exact .noAssignment missing
  | emptyKey split first empty => exact .emptyKey split first empty
  | crossesValue split first named blocked =>
    exact .crossesValue split first named (blocked_of_similar h blocked)

end Values

namespace Reordered

variable {base base' overlay overlay' root root' : Value}

protected theorem merge (hbase : Reordered base base') (hoverlay : Reordered overlay overlay') :
    Reordered (merge base overlay) (merge base' overlay') where
  similar := similar_merge hbase.wellFormed hbase.wellFormed' hoverlay.wellFormed
    hoverlay.wellFormed' hbase.similar hoverlay.similar
  wellFormed := wellFormed_merge hbase.wellFormed hoverlay.wellFormed
  wellFormed' := wellFormed_merge hbase.wellFormed' hoverlay.wellFormed'
  noTag := noTag_merge hbase.noTag hoverlay.noTag
  noTag' := noTag_merge hbase.noTag' hoverlay.noTag'

/-- An override merges one layer into both trees, or finds the same fault in both. -/
protected theorem applyOverride (h : Reordered root root') (expression : String) :
    EndAlike Reordered (applyOverride root expression) (applyOverride root' expression) := by
  cases hfirst : applyOverride root expression with
  | error error =>
    have hfault := fault_of_similar h.similar (applyOverride_eq_error_iff.1 hfirst)
    rw [applyOverride_eq_error_iff.2 hfault]
    exact .failed error
  | ok made =>
    cases hsecond : applyOverride root' expression with
    | error error =>
      have hfault := fault_of_similar h.similar.symm (applyOverride_eq_error_iff.1 hsecond)
      exact nomatch hfirst.symm.trans (applyOverride_eq_error_iff.2 hfault)
    | ok made' =>
      obtain ⟨layer, hlayer, rfl, -, hwell, hplain⟩ := applyOverride_eq_merge h.noTag hfirst
      obtain ⟨layer', hlayer', rfl, -⟩ := applyOverride_eq_merge h.noTag' hsecond
      obtain rfl := Option.some.inj (hlayer.symm.trans hlayer')
      exact .ended (h.merge ⟨.refl layer, hwell, hwell, hplain, hplain⟩)

end Reordered

namespace Layers

/-- Layers whose trees differ in the order of entries at most. -/
def Alike (layers layers' : Layers) : Prop := Reordered layers.merged layers'.merged

variable {layers layers' : Layers}

theorem withValue_alike (h : layers.Alike layers') {overlay overlay' : Value}
    (hoverlay : Reordered overlay overlay') :
    EndAlike Alike (layers.withValue overlay) (layers'.withValue overlay') := by
  cases overlay with
  | map es =>
    obtain ⟨es', rfl⟩ := hoverlay.exists_map
    exact .ended (h.merge hoverlay)
  | list items =>
    obtain ⟨items', rfl, -⟩ := hoverlay.items
    exact .failed _
  | tagged tag content => exact hoverlay.noTag.here.elim
  | null =>
    rw [hoverlay.eq_of_isScalar trivial]
    exact .ended h
  | _ =>
    rw [hoverlay.eq_of_isScalar trivial]
    exact .failed _

theorem withOverride_alike (h : layers.Alike layers') (expression : String) :
    EndAlike Alike (layers.withOverride expression) (layers'.withOverride expression) := by
  have halike := h.applyOverride expression
  unfold withOverride
  generalize applyOverride layers.merged expression = outcome at halike ⊢
  generalize applyOverride layers'.merged expression = outcome' at halike ⊢
  cases halike with
  | failed error => exact .failed _
  | ended hmade => exact .ended hmade

theorem build_eq_ok_iff_of_alike (h : layers.Alike layers') (config : Configuration) :
    layers.build = .ok config ↔ layers'.build = .ok config := by
  unfold build
  rw [mapError_eq_ok_iff, mapError_eq_ok_iff]
  exact Configuration.respects.eq_ok_iff h config

end Layers

namespace Values

/-- The same override, or documents of similar trees. -/
inductive Layer.Reorders : Layer → Layer → Prop
  | document {source source' : String}
      (h : Option.Rel Reordered (Value.parse? source) (Value.parse? source')) :
      Reorders (.document source) (.document source')
  | override (expression : String) : Reorders (.override expression) (.override expression)

theorem Layer.Reorders.addTo_alike {layer layer' : Layer} {layers layers' : Layers}
    (h : layer.Reorders layer') (hlayers : layers.Alike layers') :
    EndAlike Layers.Alike (layer.addTo layers) (layer'.addTo layers') := by
  cases h with
  | override expression => exact Layers.withOverride_alike hlayers expression
  | @document source source' h =>
    unfold Layer.addTo Layers.withDocument
    dsimp only
    generalize Value.parse? source = tree? at h ⊢
    generalize Value.parse? source' = tree?' at h ⊢
    cases h with
    | none => exact .failed _
    | some h => exact Layers.withValue_alike hlayers h

theorem foldlM_addTo_alike {sources sources' : List Layer} {start start' : Layers}
    (h : List.Forall₂ Layer.Reorders sources sources') (hstart : start.Alike start') :
    EndAlike Layers.Alike (sources.foldlM Layer.addTo start)
      (sources'.foldlM Layer.addTo start') := by
  induction h generalizing start start' with
  | nil => exact .ended hstart
  | @cons source source' rest rest' hhead _ ih =>
    rw [List.foldlM_cons, List.foldlM_cons]
    have halike := hhead.addTo_alike hstart
    generalize source.addTo start = outcome at halike ⊢
    generalize source'.addTo start' = outcome' at halike ⊢
    cases halike with
    | failed error => exact .failed error
    | ended hbetween => exact ih hbetween

/-- The order in which mappings have their entries does not matter to a merge, to an
override or to the configuration that is read in the end. -/
theorem entry_order_never_matters (base base' overlay overlay' : Value)
    (sources sources' : List Layer) (hbase : Reordered base base')
    (hoverlay : Reordered overlay overlay')
    (hsources : List.Forall₂ Layer.Reorders sources sources') :
    Reordered (merge base overlay) (merge base' overlay') ∧
    (∀ expression,
      EndAlike Reordered (applyOverride base expression) (applyOverride base' expression)) ∧
    (∀ config, (Layers.mk base).build = .ok config ↔ (Layers.mk base').build = .ok config) ∧
    ∀ config, (sources.foldlM Layer.addTo ⟨base⟩ >>= Layers.build) = .ok config ↔
      (sources'.foldlM Layer.addTo ⟨base'⟩ >>= Layers.build) = .ok config := by
  refine ⟨hbase.merge hoverlay, hbase.applyOverride, Layers.build_eq_ok_iff_of_alike hbase,
    fun config => ?_⟩
  have halike : EndAlike Layers.Alike (sources.foldlM Layer.addTo ⟨base⟩)
      (sources'.foldlM Layer.addTo ⟨base'⟩) := foldlM_addTo_alike hsources hbase
  generalize sources.foldlM Layer.addTo ⟨base⟩ = outcome at halike ⊢
  generalize sources'.foldlM Layer.addTo ⟨base'⟩ = outcome' at halike ⊢
  cases halike with
  | failed error => exact Iff.rfl
  | ended h => exact Layers.build_eq_ok_iff_of_alike h config

/-- The null drops the first of three entries on one side and the last one on the other. -/
theorem entry_order_never_matters_of_null :
    let port : Value × Value := (.text "service", .map [(.text "port", .int 8080)])
    let replicas : Value × Value := (.text "replicaCount", .int 2)
    let debug : Value × Value := (.text "debug", .bool true)
    let overlay : Value := .map [(.text "debug", .null)]
    Reordered (.map [debug, port, replicas]) (.map [port, replicas, debug]) ∧
      merge (.map [debug, port, replicas]) overlay = .map [replicas, port] ∧
      merge (.map [port, replicas, debug]) overlay = .map [port, replicas] ∧
      ∀ config, (Layers.mk (.map [debug, port, replicas])).build = .ok config ↔
        (Layers.mk (.map [port, replicas, debug])).build = .ok config := by
  intro port replicas debug overlay
  have hbase : Reordered (.map [debug, port, replicas]) (.map [port, replicas, debug]) :=
    .of_perm (by decide) rfl (List.perm_append_singleton debug [port, replicas]).symm
  have hoverlay : Reordered overlay overlay := .refl (by decide) rfl
  have horder := entry_order_never_matters _ _ overlay overlay [] [] hbase hoverlay .nil
  exact ⟨hbase, rfl, rfl, horder.2.2.1⟩

end Values

end ServerManifests
