import ServerManifests.Proofs.Codec.Json
import ServerManifests.Proofs.Success
import ServerManifests.Proofs.Values.Override
import ServerManifests.Values.Layers

/-!
Loading as one fold over layers. If no document has a tag, the tree from which the
configuration is read is the defaults with the documents and the overrides merged
into them in order, all of them as layers of one kind.
-/
namespace ServerManifests

open Yaml Value Values

namespace Values

/-- A tree with a layer on top; a null layer has nothing. -/
def stack (root layer : Value) : Value :=
  match layer with
  | .null => root
  | layer => merge root layer

/-- A tree that can be looked up by texts. -/
structure Sound (root : Value) : Prop where
  wellFormed : root.WellFormed
  noTag : root.Everywhere NoTag

/-- What a layer is: a sound tree that is a mapping or null. -/
structure IsLayer (layer : Value) : Prop extends Sound layer where
  shape : layer = .null ∨ ∃ entries, layer = .map entries

theorem Sound.stack {root layer : Value} (hroot : Sound root) (hlayer : Sound layer) :
    Sound (stack root layer) := by
  unfold Values.stack
  split
  · exact hroot
  · exact ⟨wellFormed_merge hroot.wellFormed hlayer.wellFormed,
      noTag_merge hroot.noTag hlayer.noTag⟩

theorem Sound.foldl_stack {root : Value} {layers : List Value} (hroot : Sound root)
    (hlayers : ∀ layer ∈ layers, IsLayer layer) : Sound (layers.foldl Values.stack root) := by
  induction layers generalizing root with
  | nil => exact hroot
  | cons layer rest ih =>
    obtain ⟨hlayer, hrest⟩ := List.forall_mem_cons.1 hlayers
    exact ih (hroot.stack hlayer.toSound) hrest

end Values

namespace Layers

theorem sound_defaults : Sound defaults.merged where
  wellFormed := wellFormed_ofJson (Configuration.write {}) rfl
  noTag := everywhere_noTag rfl

theorem withValue_eq_ok {layers layers' : Layers} {overlay : Value}
    (h : layers.withValue overlay = .ok layers') :
    layers'.merged = stack layers.merged overlay ∧
      (overlay = .null ∨ ∃ entries, overlay = .map entries) := by
  unfold withValue at h
  split at h
  · obtain rfl := Except.ok.inj h
    exact ⟨rfl, .inl rfl⟩
  · next entries =>
    obtain rfl := Except.ok.inj h
    exact ⟨rfl, .inr ⟨entries, rfl⟩⟩
  · cases h

theorem withDocument_eq_ok_iff {layers layers' : Layers} {text : String} :
    layers.withDocument text = .ok layers' ↔
      ∃ document, Value.parse? text = some document ∧ layers.withValue document = .ok layers' := by
  unfold withDocument
  cases Value.parse? text with
  | none => simp
  | some document => simp

theorem withDocument_eq_ok {layers layers' : Layers} {text : String} {document : Value}
    (hdocument : Value.parse? text = some document) (hplain : document.hasTag = false)
    (h : layers.withDocument text = .ok layers') :
    layers'.merged = stack layers.merged document ∧ IsLayer document := by
  obtain ⟨document', hdocument', hvalue⟩ := withDocument_eq_ok_iff.1 h
  obtain rfl := Option.some.inj (hdocument.symm.trans hdocument')
  obtain ⟨hmerged, hshape⟩ := withValue_eq_ok hvalue
  exact ⟨hmerged, ⟨⟨parse?_wellFormed hdocument, everywhere_noTag hplain⟩, hshape⟩⟩

theorem withOverride_eq_ok_iff {layers layers' : Layers} {expression : String} :
    layers.withOverride expression = .ok layers' ↔
      applyOverride layers.merged expression = .ok layers'.merged := by
  unfold withOverride
  cases applyOverride layers.merged expression with
  | error error => simp
  | ok merged =>
    constructor
    · intro h
      rw [← Except.ok.inj h]
    · intro h
      rw [Except.ok.inj h]

theorem withOverride_eq_ok {layers layers' : Layers} {expression : String}
    (hlayers : Sound layers.merged) (h : layers.withOverride expression = .ok layers') :
    ∃ layer, overrideLayer? expression = some layer ∧
      layers'.merged = stack layers.merged layer ∧ IsLayer layer := by
  obtain ⟨layer, hlayer, hmerged, ⟨entries, rfl⟩, hwellFormed, hnoTag⟩ :=
    applyOverride_eq_merge hlayers.noTag (withOverride_eq_ok_iff.1 h)
  exact ⟨_, hlayer, hmerged, ⟨hwellFormed, hnoTag⟩, .inr ⟨entries, rfl⟩⟩

theorem foldlM_withFile_eq_ok {layers layers' : Layers} {texts : List String}
    {documents : List Value} (hdocuments : texts.mapM Value.parse? = some documents)
    (hplain : ∀ document ∈ documents, document.hasTag = false)
    (h : (texts.map Except.ok).foldlM withFile layers = .ok layers') :
    layers'.merged = documents.foldl stack layers.merged ∧
      ∀ document ∈ documents, IsLayer document := by
  induction texts generalizing layers documents with
  | nil =>
    obtain rfl := Option.some.inj hdocuments
    obtain rfl := Except.ok.inj h
    exact ⟨rfl, fun document hmem => absurd hmem List.not_mem_nil⟩
  | cons text rest ih =>
    rw [List.mapM_cons] at hdocuments
    obtain ⟨document, hdocument, hdocuments⟩ := Option.bind_eq_some_iff.1 hdocuments
    obtain ⟨documents, hrest, heq⟩ := Option.bind_eq_some_iff.1 hdocuments
    obtain rfl := Option.some.inj heq
    obtain ⟨hplainHead, hplainRest⟩ := List.forall_mem_cons.1 hplain
    rw [List.map_cons, List.foldlM_cons] at h
    obtain ⟨between, hhead, htail⟩ := bind_eq_ok_iff.1 h
    obtain ⟨hmerged, hlayer⟩ := withDocument_eq_ok hdocument hplainHead hhead
    obtain ⟨hmerged', hlayers⟩ := ih hrest hplainRest htail
    rw [hmerged', hmerged]
    exact ⟨rfl, List.forall_mem_cons.2 ⟨hlayer, hlayers⟩⟩

theorem foldlM_withOverride_eq_ok {layers layers' : Layers} {overrides : List String}
    (hlayers : Sound layers.merged)
    (h : overrides.foldlM withOverride layers = .ok layers') :
    layers'.merged = (overrides.filterMap overrideLayer?).foldl stack layers.merged ∧
      ∀ layer ∈ overrides.filterMap overrideLayer?, IsLayer layer := by
  induction overrides generalizing layers with
  | nil =>
    obtain rfl := Except.ok.inj h
    exact ⟨rfl, fun layer hmem => absurd hmem List.not_mem_nil⟩
  | cons expression rest ih =>
    rw [List.foldlM_cons] at h
    obtain ⟨between, hhead, htail⟩ := bind_eq_ok_iff.1 h
    obtain ⟨layer, hlayer, hmerged, hisLayer⟩ := withOverride_eq_ok hlayers hhead
    have hbetween : Sound between.merged := by
      rw [hmerged]
      exact hlayers.stack hisLayer.toSound
    obtain ⟨hmerged', hrest⟩ := ih hbetween htail
    rw [hmerged', hmerged, List.filterMap_cons_some hlayer]
    exact ⟨rfl, List.forall_mem_cons.2 ⟨hisLayer, hrest⟩⟩

end Layers

/-- A configuration that loads is read from the stack of its layers. -/
theorem load_eq_ok {texts overrides : List String} {documents : List Value}
    {config : Configuration} (hdocuments : texts.mapM Value.parse? = some documents)
    (hplain : ∀ document ∈ documents, document.hasTag = false)
    (h : Configuration.load (texts.map .ok) overrides = .ok config) :
    let layers := documents ++ overrides.filterMap overrideLayer?
    (∀ layer ∈ layers, IsLayer layer) ∧
      Configuration.read (layers.foldl stack Layers.defaults.merged) = .ok config := by
  intro layers
  unfold Configuration.load at h
  obtain ⟨first, hfirst, h⟩ := bind_eq_ok_iff.1 h
  obtain ⟨second, hsecond, hbuild⟩ := bind_eq_ok_iff.1 h
  obtain ⟨hmerged, hlayers⟩ := Layers.foldlM_withFile_eq_ok hdocuments hplain hfirst
  have hsound : Sound first.merged := by
    rw [hmerged]
    exact Layers.sound_defaults.foldl_stack hlayers
  obtain ⟨hmerged', hoverrides⟩ := Layers.foldlM_withOverride_eq_ok hsound hsecond
  have htree : layers.foldl stack Layers.defaults.merged = second.merged := by
    rw [hmerged', hmerged, List.foldl_append]
  constructor
  · intro layer hmem
    rcases List.mem_append.1 hmem with hmem | hmem
    · exact hlayers layer hmem
    · exact hoverrides layer hmem
  · rw [htree]
    exact mapError_eq_ok_iff.1 hbuild

end ServerManifests
