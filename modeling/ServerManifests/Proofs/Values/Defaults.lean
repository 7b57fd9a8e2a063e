import ServerManifests.Proofs.Configuration.Blocks
import ServerManifests.Proofs.Values.Mention

/-!
Partial blocks keep the built-in defaults. A layer leaves alone what it does not touch,
at any depth, so after any layers the tree has at an untouched field what the tree of
the defaults has there, and the field is read as its default.
-/
namespace ServerManifests

open Yaml Value Values

namespace Values

/-- What is put on top of the values so far. -/
inductive Layer where
  | document (source : String)
  | override (expression : String)

namespace Layer

def addTo (layers : Layers) : Layer → Except Failure Layers
  | .document source => layers.withDocument source
  | .override expression => layers.withOverride expression

/-- The tree that a layer is merged as. -/
def tree? : Layer → Option Value
  | .document source => Value.parse? source
  | .override expression => overrideLayer? expression

/-- Whether the document has no tags; an override never has one. -/
def isPlain : Layer → Bool
  | .document source => (Value.parse? source).all fun tree => !tree.hasTag
  | .override _ => true

end Layer

/-- Whether a value gives something to the end of a path, or gives what is no mapping
to a block on the way there. -/
def touches : List String → Value → Bool
  | [], _ => true
  | name :: rest, .map entries => (Entries.find? entries (.text name)).any (touches rest)
  | _ :: _, _ => true

/-- Whether a layer mentions the field at a path. An empty document mentions nothing. -/
def Layer.mentions (path : List String) (layer : Layer) : Bool :=
  match layer.tree? with
  | none | some .null => false
  | some tree => touches path tree

theorem not_touches_cons {name : String} {rest : List String} {value : Value}
    (h : touches (name :: rest) value = false) :
    ∃ entries, value = .map entries ∧
      ∀ given, Entries.find? entries (.text name) = some given → touches rest given = false := by
  cases value with
  | map entries =>
    refine ⟨entries, rfl, fun given hgiven => ?_⟩
    have hany : (Entries.find? entries (.text name)).any (touches rest) = false := h
    rw [hgiven] at hany
    exact hany
  | _ => cases h

/-- A layer that does not touch an entry of a block leaves the block a mapping and the
entry as it is. -/
theorem merge_of_not_touches {names : List String} {name : String} {root : Value}
    {overlay es : Entries} (hroot : root.WellFormed) (hoverlay : (Value.map overlay).WellFormed)
    (hleft : touches (names ++ [name]) (.map overlay) = false)
    (hblock : root.get? names = some (.map es)) :
    ∃ es', (merge root (.map overlay)).get? names = some (.map es') ∧
      Entries.find? es' (.text name) = Entries.find? es (.text name) := by
  induction names generalizing root overlay with
  | nil =>
    obtain rfl : root = .map es := Option.some.inj hblock
    have hnone : Entries.find? overlay (.text name) = none := by
      obtain ⟨entries, heq, huntouched⟩ := not_touches_cons hleft
      obtain rfl := Value.map.inj heq
      cases hgiven : Entries.find? overlay (.text name) with
      | none => rfl
      | some given => cases huntouched given hgiven
    refine ⟨mergeEntries es overlay, congrArg some (merge_map es overlay), ?_⟩
    rw [find?_mergeEntries hroot.here hoverlay.here, hnone]
    rfl
  | cons outer rest ih =>
    rw [get?_cons] at hblock
    obtain ⟨child, hchild, hinner⟩ := Option.bind_eq_some_iff.1 hblock
    rw [get?_cons, get?_merge_map hroot hoverlay, hchild]
    obtain ⟨entries, heq, huntouched⟩ := not_touches_cons hleft
    obtain rfl := Value.map.inj heq
    cases hgiven : Entries.find? overlay (.text outer) with
    | none => exact ⟨es, hinner, rfl⟩
    | some given =>
      have hrest := huntouched given hgiven
      -- an untouched path goes on below, so what is given for the block is a mapping
      obtain ⟨inside, rfl⟩ : ∃ inside, given = .map inside := by
        change touches (rest ++ [name]) given = false at hrest
        obtain ⟨key, path, hpath⟩ := List.exists_cons_of_ne_nil
          (List.append_ne_nil_of_right_ne_nil rest (List.cons_ne_nil name []))
        rw [hpath] at hrest
        obtain ⟨inside, hinside, -⟩ := not_touches_cons hrest
        exact ⟨inside, hinside⟩
      rw [← get?_singleton_map] at hgiven
      exact ih (everywhere_get? hroot hchild) (everywhere_get? hoverlay hgiven) hrest hinner

/-- A tree with a block whose entry `name` is `found`. -/
structure HasEntry (names : List String) (name : String) (found : Option Value) (root : Value) :
    Prop where
  sound : Sound root
  entry : ∃ es, root.get? names = some (.map es) ∧ Entries.find? es (.text name) = found

/-- An accepted layer without tags is merged on top of a tree without tags. -/
theorem Layer.addTo_eq_ok {layers layers' : Layers} {layer : Layer} (hlayers : Sound layers.merged)
    (hplain : layer.isPlain = true) (hadd : layer.addTo layers = .ok layers') :
    ∃ tree, layer.tree? = some tree ∧ layers'.merged = stack layers.merged tree ∧
      IsLayer tree := by
  cases layer with
  | document source =>
    obtain ⟨tree, hparse, -⟩ := Layers.withDocument_eq_ok_iff.1 hadd
    have hnoTag : tree.hasTag = false := by simpa [Layer.isPlain, hparse] using hplain
    exact ⟨tree, hparse, Layers.withDocument_eq_ok hparse hnoTag hadd⟩
  | override expression => exact Layers.withOverride_eq_ok hlayers hadd

theorem Sound.addTo {layers layers' : Layers} {layer : Layer} (h : Sound layers.merged)
    (hplain : layer.isPlain = true) (hadd : layer.addTo layers = .ok layers') :
    Sound layers'.merged := by
  obtain ⟨tree, -, hmerged, hlayer⟩ := Layer.addTo_eq_ok h hplain hadd
  rw [hmerged]
  exact h.stack hlayer.toSound

theorem Sound.foldlM_addTo {layers : List Layer} {start built : Layers} (h : Sound start.merged)
    (hplain : ∀ layer ∈ layers, layer.isPlain = true)
    (hadd : layers.foldlM Layer.addTo start = .ok built) : Sound built.merged :=
  of_foldlM_eq_ok (p := fun layers => Sound layers.merged) hadd h
    fun layer hmem _ _ hsound hstep => hsound.addTo (hplain layer hmem) hstep

/-- One accepted layer keeps an entry that it does not mention. -/
theorem HasEntry.addTo {names : List String} {name : String} {found : Option Value}
    {layers layers' : Layers} {layer : Layer} (h : HasEntry names name found layers.merged)
    (hadd : layer.addTo layers = .ok layers') (hplain : layer.isPlain = true)
    (hleft : layer.mentions (names ++ [name]) = false) :
    HasEntry names name found layers'.merged := by
  refine ⟨h.sound.addTo hplain hadd, ?_⟩
  obtain ⟨tree, htree, hmerged, hlayer⟩ := Layer.addTo_eq_ok h.sound hplain hadd
  obtain ⟨es, hblock, hentry⟩ := h.entry
  rw [hmerged]
  rcases hlayer.shape with rfl | ⟨overlay, rfl⟩
  · exact ⟨es, hblock, hentry⟩
  · have huntouched : touches (names ++ [name]) (.map overlay) = false := by
      unfold Layer.mentions at hleft
      rwa [htree] at hleft
    obtain ⟨es', hblock', hentry'⟩ :=
      merge_of_not_touches h.sound.wellFormed hlayer.wellFormed huntouched hblock
    exact ⟨es', hblock', hentry'.trans hentry⟩

theorem HasEntry.foldlM_addTo {names : List String} {name : String} {found : Option Value}
    {start layers' : Layers} {layers : List Layer} (h : HasEntry names name found start.merged)
    (hadd : layers.foldlM Layer.addTo start = .ok layers')
    (hplain : ∀ layer ∈ layers, layer.isPlain = true)
    (hleft : ∀ layer ∈ layers, layer.mentions (names ++ [name]) = false) :
    HasEntry names name found layers'.merged :=
  of_foldlM_eq_ok (p := fun layers => HasEntry names name found layers.merged) hadd h
    fun layer hmem _ _ hentry hstep => hentry.addTo hstep (hplain layer hmem) (hleft layer hmem)

/-- In a sound tree no name is spelled twice in a block. -/
theorem HasEntry.hasTwin_eq_false {names : List String} {name : String} {found : Option Value}
    {root : Value} (h : HasEntry names name found root) {es : Entries}
    (hblock : root.get? names = some (.map es)) : es.hasTwin name = false := by
  have hkeys := (everywhere_map_iff.1 (everywhere_get? h.sound.noTag hblock)).2
  exact Entries.hasTwin_eq_false_iff.2 fun e he =>
    Entries.isTwin_eq_false_of_noTag (hkeys e he).1.here

end Values

namespace Configuration

variable {S T : Type} {names : List String} {r : Record T} {block : Lens Configuration T}

/-- The defaults have every block, as a mapping. -/
theorem Block.exists_default (h : Block names r block) :
    ∃ es, Layers.defaults.merged.get? names = some (.map es) := by
  cases h <;> exact ⟨_, rfl⟩

/-- The entry of an embedded block, read from wherever the outer block is. -/
theorem read_get?_of_embeds {outer : Record S} {inner : Record T} {part : Lens S T}
    {name : String} (hembeds : outer.Embeds name inner part) (hlawful : outer.Lawful)
    {value child : Value} {whole : S} (houter : outer.read value = .ok whole)
    (hchild : value.get? [name] = some child) : inner.read child = .ok (part.get whole) := by
  cases value with
  | map entries =>
    rw [get?_singleton_map] at hchild
    exact hembeds.read_given hlawful rfl hchild houter
  | _ => cases hchild

/-- A block of a configuration is read from what the tree has at its place. -/
theorem Block.read_get? (h : Block names r block) {root child : Value} {config : Configuration}
    (hread : record.read root = .ok config) (hchild : root.get? names = some child) :
    r.read child = .ok (block.get config) := by
  cases h with
  | whole => exact Option.some.inj hchild ▸ hread
  | image => exact read_get?_of_embeds embeds_image Configuration.lawful hread hchild
  | autoscaling => exact read_get?_of_embeds embeds_autoscaling Configuration.lawful hread hchild
  | database => exact read_get?_of_embeds embeds_database Configuration.lawful hread hchild
  | secretsStore => exact read_get?_of_embeds embeds_secretsStore Configuration.lawful hread hchild
  | backupSecretsStore =>
    exact read_get?_of_embeds embeds_backupSecretsStore Configuration.lawful hread hchild
  | ingress => exact read_get?_of_embeds embeds_ingress Configuration.lawful hread hchild
  | tls =>
    rw [get?_cons] at hchild
    obtain ⟨outer, houter, hinner⟩ := Option.bind_eq_some_iff.1 hchild
    have hingress := read_get?_of_embeds embeds_ingress Configuration.lawful hread houter
    exact read_get?_of_embeds Ingress.embeds_tls Ingress.lawful hingress hinner
  | service => exact read_get?_of_embeds embeds_service Configuration.lawful hread hchild
  | serviceAccount =>
    exact read_get?_of_embeds embeds_serviceAccount Configuration.lawful hread hchild

/-- Two trees that have the same entry for a field of a block give it one value. -/
theorem Block.get_eq_of_hasEntry {α : Type} {field : Field T} {lens : Lens T α}
    {found : Option Value} {root root' : Value} {config config' : Configuration}
    (h : Block names r block) (hpart : r.HasPart field lens)
    (hroot : HasEntry names field.name found root) (hread : record.read root = .ok config)
    (hroot' : HasEntry names field.name found root') (hread' : record.read root' = .ok config') :
    lens.get (block.get config) = lens.get (block.get config') := by
  obtain ⟨es, hblock, hentry⟩ := hroot.entry
  obtain ⟨es', hblock', hentry'⟩ := hroot'.entry
  exact hpart.get_eq_of_find? h.lawful rfl rfl (h.read_get? hread hblock)
    (h.read_get? hread' hblock') (hroot.hasTwin_eq_false hblock)
    (hroot'.hasTwin_eq_false hblock') (hentry.trans hentry'.symm)

end Configuration

theorem Layers.build_defaults : Layers.defaults.build = .ok {} := rfl

namespace Values

open ServerManifests.Configuration

/-- Without layers the defaults are built, and after any layers a field that none of
them mentions has its default. -/
theorem unmentioned_field_is_default :
    Layers.defaults.build = .ok {} ∧
    ∀ (layers : List Layer) (built : Layers) (config : Configuration) (names : List String)
      (T : Type) (r : Record T) (block : Lens Configuration T) (field : Field T),
      layers.foldlM Layer.addTo Layers.defaults = .ok built →
      (∀ layer ∈ layers, layer.isPlain = true) → built.build = .ok config →
      Block names r block → field ∈ r.fields →
      (∀ layer ∈ layers, layer.mentions (names ++ [field.name]) = false) →
      ∃ (α : Type) (lens : Lens T α), field.Holds lens ∧
        (block.comp lens).get config = (block.comp lens).get {} := by
  refine ⟨Layers.build_defaults, ?_⟩
  intro layers built config names T r block field hadd hplain hbuild hblock hfield hleft
  obtain ⟨α, lens, hpart⟩ := hblock.lawful.exists_hasPart hfield
  obtain ⟨es, hes⟩ := hblock.exists_default
  have hstart : HasEntry names field.name (Entries.find? es (.text field.name))
      Layers.defaults.merged := ⟨Layers.sound_defaults, es, hes, rfl⟩
  have hend := hstart.foldlM_addTo hadd hplain hleft
  refine ⟨α, lens, hpart.holds, ?_⟩
  exact hblock.get_eq_of_hasEntry hpart hend (mapError_eq_ok_iff.1 hbuild) hstart
    (mapError_eq_ok_iff.1 Layers.build_defaults)

/-- The store stays on with another backend, though a store that is read on its own
is off unless it says otherwise. -/
theorem unmentioned_field_is_default_of_switch :
    let layers := [Layer.document "secretsStore:\n  type: aws\n", .override "service.port=8080"]
    ∃ built config, layers.foldlM Layer.addTo Layers.defaults = .ok built ∧
      built.build = .ok config ∧
      ∃ field ∈ SecretsStore.record.fields, field.name = "enabled" ∧
        (∀ layer ∈ layers, layer.mentions ["secretsStore", "enabled"] = false) ∧
        ∃ (α : Type) (lens : Lens SecretsStore α), field.Holds lens ∧
          (secretsStorePart.comp lens).get config = (secretsStorePart.comp lens).get {} := by
  intro layers
  have hbuilds : ((layers.foldlM Layer.addTo Layers.defaults).bind Layers.build).isOk = true := by
    decide +kernel
  obtain ⟨config, hload⟩ := isOk_iff.1 hbuilds
  obtain ⟨built, hadd, hbuild⟩ := bind_eq_ok_iff.1 hload
  have hplain : ∀ layer ∈ layers, layer.isPlain = true := by decide +kernel
  have hleft : ∀ layer ∈ layers, layer.mentions ["secretsStore", "enabled"] = false := by
    decide +kernel
  have hfield := unmentioned_field_is_default.2 layers built config ["secretsStore"] SecretsStore
    SecretsStore.record secretsStorePart _ hadd hplain hbuild .secretsStore List.mem_cons_self hleft
  exact ⟨built, config, hadd, hbuild, _, List.mem_cons_self, rfl, hleft, hfield⟩

end Values

end ServerManifests
