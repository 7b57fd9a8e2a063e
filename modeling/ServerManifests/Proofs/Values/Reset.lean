import Mathlib.Algebra.Ring.Parity
import ServerManifests.Proofs.Values.Defaults

/-!
A null for one key in layer after layer. What it does is decided by the tree it comes to
and not by what has been set before: a key that it finds there it drops, and where the
key is gone, be it that an earlier null dropped it, the null is stored. So of nulls in a
row each takes back what the one before it did.
-/
namespace ServerManifests

open Yaml Value Values

namespace Yaml.Value

/-- The value at the end of a path of keys of any kind, looking through tags. -/
def lookup? : List Value → Value → Option Value
  | [], value => some value
  | key :: rest, value =>
    match value.untagged with
    | .map es => (Entries.find? es key).bind (lookup? rest)
    | _ => none

/-- The value at the end of a path that meets no tag. -/
def open? : List Value → Value → Option Value
  | [], value => some value
  | key :: rest, .map es => (Entries.find? es key).bind (open? rest)
  | _ :: _, _ => none

theorem lookup?_cons {key : Value} {rest : List Value} {value : Value} {es : Entries}
    (h : value.untagged = .map es) :
    value.lookup? (key :: rest) = (es.find? key).bind (lookup? rest) := by
  rw [lookup?, h]

theorem exists_of_lookup?_cons {key found : Value} {rest : List Value} {value : Value}
    (h : value.lookup? (key :: rest) = some found) :
    ∃ es child, value.untagged = .map es ∧ Entries.find? es key = some child ∧
      child.lookup? rest = some found := by
  rw [lookup?] at h
  split at h
  · next es hes =>
    obtain ⟨child, hchild, hfound⟩ := Option.bind_eq_some_iff.1 h
    exact ⟨es, child, hes, hchild, hfound⟩
  · cases h

theorem open?_eq_lookup? {value : Value} (h : value.Everywhere NoTag) (path : List Value) :
    value.open? path = value.lookup? path := by
  induction path generalizing value with
  | nil => rfl
  | cons key rest ih =>
    cases value with
    | map es =>
      rw [lookup?_cons rfl, open?]
      cases hfind : Entries.find? es key with
      | none => rfl
      | some child => exact ih (h.find? hfind)
    | tagged tag content => exact h.here.elim
    | _ => rfl

theorem lookup?_of_open? {path : List Value} {value found : Value}
    (h : value.open? path = some found) : value.lookup? path = some found := by
  induction path generalizing value with
  | nil => exact h
  | cons key rest ih =>
    cases value with
    | map es =>
      obtain ⟨child, hchild, hfound⟩ := Option.bind_eq_some_iff.1 h
      rw [lookup?_cons rfl, hchild]
      exact ih hfound
    | _ => cases h

theorem exists_of_open?_cons {key : Value} {rest : List Value} {value : Value}
    (h : (value.open? (key :: rest)).isSome = true) : ∃ es, value = .map es := by
  cases value with
  | map es => exact ⟨es, rfl⟩
  | _ => cases h

end Yaml.Value

namespace Values

/-- A null in a document drops the key at its place if the path to it meets no tag on
either side, and else stands where it stands in the document. -/
theorem lookup?_merge {base overlay given : Value} {path : List Value} (hbase : base.WellFormed)
    (hoverlay : overlay.WellFormed) (hpath : path ≠ []) (hgiven : overlay.lookup? path = some given)
    (hnull : given.isNull = true) :
    (merge base overlay).lookup? path =
      if (base.open? path).isSome && (overlay.open? path).isSome then none else some given := by
  induction path generalizing base overlay with
  | nil => exact absurd rfl hpath
  | cons key rest ih =>
    by_cases hmaps : ∃ entries overlays, base = .map entries ∧ overlay = .map overlays
    · obtain ⟨entries, overlays, rfl, rfl⟩ := hmaps
      obtain ⟨_, child, hes, hchild, hrest⟩ := exists_of_lookup?_cons hgiven
      obtain rfl := Value.map.inj hes
      rw [merge_map, lookup?_cons rfl, find?_mergeEntries hbase.here hoverlay.here, open?, open?,
        hchild]
      cases hpresent : Entries.find? entries key with
      | none => exact hrest
      | some present =>
        cases rest with
        | nil =>
          obtain rfl := Option.some.inj hrest
          simp [combined, hnull, open?]
        | cons next rest =>
          have hkept : child.isNull = false := by
            obtain ⟨es, -, hes, -, -⟩ := exists_of_lookup?_cons hrest
            unfold isNull
            rw [hes]
          have hmerged := ih (Everywhere.find? hbase hpresent) (Everywhere.find? hoverlay hchild)
            (List.cons_ne_nil next rest) hrest
          simpa [combined, hkept] using hmerged
    · have hclosed : ¬((base.open? (key :: rest)).isSome &&
          (overlay.open? (key :: rest)).isSome) = true := by
        intro hopen
        obtain ⟨hbaseOpen, hoverlayOpen⟩ := Bool.and_eq_true_iff.1 hopen
        obtain ⟨entries, hentries⟩ := exists_of_open?_cons hbaseOpen
        obtain ⟨overlays, hoverlays⟩ := exists_of_open?_cons hoverlayOpen
        exact hmaps ⟨entries, overlays, hentries, hoverlays⟩
      rw [merge_of_not_maps hmaps, hgiven, if_neg hclosed]

theorem find?_assign_null {es : Entries} (h : es.Distinct) (key : Value) :
    (es.assign key .null).find? key = if (es.find? key).isSome then none else some .null := by
  have hscalar : IsScalar .null := trivial
  rw [assign_eq_mergeEntry hscalar, find?_mergeEntry h, if_pos (agrees_self key)]
  cases es.find? key <;> rfl

theorem find?_insert_self (es : Entries) (key value : Value) :
    (es.insert key value).find? key = some value := by
  unfold Entries.insert
  cases hfind : es.find? key with
  | none =>
    dsimp only
    rw [Entries.find?_append, hfind, Entries.find?_cons, if_pos (agrees_self key)]
    rfl
  | some present =>
    dsimp only
    rw [Entries.find?_replace, hfind, Option.map_some, if_pos (agrees_self key)]

/-- A null at the end of an override's path drops the key if it is there, under tags
or not, and else is stored. -/
theorem lookup?_assignAt? {root root' : Value} {path : List String} (hroot : root.WellFormed)
    (h : assignAt? .null path root = some root') :
    root'.lookup? (path.map .text) =
      if (root.lookup? (path.map .text)).isSome then none else some .null := by
  induction path generalizing root root' with
  | nil => cases h
  | cons key rest ih =>
    cases rest with
    | nil =>
      obtain ⟨es, es', hes, hchange, hes'⟩ := withEntries?_eq_some h
      obtain rfl := Option.some.inj hchange
      have hwell : (Value.map es).WellFormed := hes ▸ Everywhere.untagged hroot
      rw [List.map_cons, lookup?_cons hes, lookup?_cons hes', find?_assign_null hwell.here]
      cases Entries.find? es (.text key) <;> rfl
    | cons next rest =>
      obtain ⟨es, es', hes, hchange, hes'⟩ := withEntries?_eq_some h
      obtain ⟨child, hassign, rfl⟩ := Option.map_eq_some_iff.1 hchange
      have hwell : (Value.map es).WellFormed := hes ▸ Everywhere.untagged hroot
      rw [List.map_cons, lookup?_cons hes, lookup?_cons hes', find?_insert_self, Option.bind_some]
      cases hfind : Entries.find? es (.text key) with
      | none =>
        rw [hfind, Option.getD_none] at hassign
        exact ih (by decide) hassign
      | some present =>
        rw [hfind, Option.getD_some] at hassign
        exact ih (Everywhere.find? hwell hfind) hassign

theorem wellFormed_withEntries? {change : Entries → Option Entries} {value value' : Value}
    (hvalue : value.WellFormed)
    (hchange : ∀ es es', value.untagged = .map es → change es = some es' →
      (Value.map es').WellFormed)
    (h : withEntries? change value = some value') : value'.WellFormed := by
  induction value using Value.untagged.induct generalizing value' with
  | case1 tag value ih =>
    obtain ⟨content, hcontent, rfl⟩ := Option.map_eq_some_iff.1 h
    exact everywhere_tagged_iff.2 ⟨trivial, ih (everywhere_tagged_iff.1 hvalue).2 hchange hcontent⟩
  | case2 value hnot =>
    cases value with
    | map es =>
      obtain ⟨es', hes', rfl⟩ := Option.map_eq_some_iff.1 h
      exact hchange es es' rfl hes'
    | tagged tag value => exact absurd rfl (hnot tag value)
    | _ => cases h

theorem wellFormed_insert {es : Entries} {name : String} {value : Value}
    (hes : (Value.map es).WellFormed) (hvalue : value.WellFormed) :
    (Value.map (es.insert (.text name) value)).WellFormed := by
  have hdistinct : Entries.Distinct (es.insert (.text name) value) := by
    unfold Entries.insert
    cases hfind : Entries.find? es (.text name) with
    | none => exact Entries.Distinct.append_new hes.here hfind
    | some present => exact Entries.Distinct.replace hes.here (.text name) value
  refine everywhere_map_iff.2 ⟨hdistinct, ?_⟩
  exact Entries.forall_mem_insert (p := fun key content => key.WellFormed ∧ content.WellFormed)
    (everywhere_map_iff.1 hes).2 ⟨wellFormed_of_isScalar trivial, hvalue⟩

/-- An override keeps a tree well formed, also one with tags. -/
theorem wellFormed_assignAt? {value root root' : Value} {path : List String}
    (hvalue : value.IsScalar) (hroot : root.WellFormed)
    (h : assignAt? value path root = some root') : root'.WellFormed := by
  induction path generalizing root root' with
  | nil => cases h
  | cons key rest ih =>
    cases rest with
    | nil =>
      refine wellFormed_withEntries? hroot (fun es es' hes hchange => ?_) h
      obtain rfl := Option.some.inj hchange
      have hlayer : (Value.map [(.text key, value)]).WellFormed :=
        wellFormed_nest (wellFormed_of_isScalar hvalue) [key]
      rw [assign_eq_mergeEntry hvalue, ← merge_map_singleton]
      exact wellFormed_merge (hes ▸ Everywhere.untagged hroot) hlayer
    | cons next rest =>
      refine wellFormed_withEntries? hroot (fun es es' hes hchange => ?_) h
      obtain ⟨child, hassign, rfl⟩ := Option.map_eq_some_iff.1 hchange
      have hwell : (Value.map es).WellFormed := hes ▸ Everywhere.untagged hroot
      have hchild := Everywhere.find?_getD hwell List.Pairwise.nil (.text key)
      exact wellFormed_insert hwell (ih hchild hassign)

/-- A layer that is accepted keeps a tree well formed. -/
theorem wellFormed_addTo {layers layers' : Layers} {layer : Layer}
    (h : layers.merged.WellFormed) (hadd : layer.addTo layers = .ok layers') :
    layers'.merged.WellFormed := by
  cases layer with
  | document source =>
    obtain ⟨tree, hparse, hvalue⟩ := Layers.withDocument_eq_ok_iff.1 hadd
    rw [(Layers.withValue_eq_ok hvalue).1]
    unfold stack
    split
    · exact h
    · exact wellFormed_merge h (parse?_wellFormed hparse)
  | override expression =>
    have happly := Layers.withOverride_eq_ok_iff.1 hadd
    obtain ⟨path, raw, -, -, hassign⟩ := applyOverride_eq_ok_iff.1 happly
    exact wellFormed_assignAt? (scalarOf_isScalar raw) h hassign

theorem wellFormed_foldlM_addTo {layers : List Layer} {start built : Layers}
    (h : start.merged.WellFormed) (hadd : layers.foldlM Layer.addTo start = .ok built) :
    built.merged.WellFormed :=
  of_foldlM_eq_ok (p := fun layers => layers.merged.WellFormed) hadd h
    fun _ _ _ _ hwell hstep => wellFormed_addTo hwell hstep

/-- A layer that gives null to the end of a path. -/
inductive Layer.GivesNull (path : List Value) : Layer → Prop
  | document {source : String} {tree given : Value} (parsed : Value.parse? source = some tree)
      (found : tree.lookup? path = some given) (null : given.isNull = true) :
      GivesNull path (.document source)
  | override {expression name raw : String}
      (assignment : splitAssignment? expression = some (name, raw))
      (keys : (pathKeys name).map .text = path) (null : scalarOf raw = .null) :
      GivesNull path (.override expression)

/-- Whether a layer comes upon a key that is there. An override looks through tags; a
document is merged as far as neither it nor the tree has one. -/
def Layer.finds (path : List Value) (root : Value) : Layer → Bool
  | .document source =>
    (root.open? path).isSome && ((Value.parse? source).bind (open? path)).isSome
  | .override _ => (root.lookup? path).isSome

/-- What a null leaves of a key: nothing where it was found, and else the null. -/
theorem Layer.GivesNull.lookup?_addTo {path : List Value} {layers layers' : Layers} {layer : Layer}
    (h : layer.GivesNull path) (hpath : path ≠ []) (hwell : layers.merged.WellFormed)
    (hadd : layer.addTo layers = .ok layers') :
    ∃ given, given.isNull = true ∧ layers'.merged.lookup? path =
      if layer.finds path layers.merged then none else some given := by
  cases h with
  | @document source tree given parsed found null =>
    refine ⟨given, null, ?_⟩
    obtain ⟨tree', parsed', hvalue⟩ := Layers.withDocument_eq_ok_iff.1 hadd
    obtain rfl := Option.some.inj (parsed.symm.trans parsed')
    obtain ⟨hmerged, hshape⟩ := Layers.withValue_eq_ok hvalue
    obtain ⟨key, rest, rfl⟩ := List.exists_cons_of_ne_nil hpath
    rcases hshape with rfl | ⟨entries, rfl⟩
    · obtain ⟨es, -, hes, -, -⟩ := exists_of_lookup?_cons found
      cases hes
    · rw [hmerged, Layer.finds, parsed]
      exact lookup?_merge hwell (parse?_wellFormed parsed) hpath found null
  | @override expression name raw assignment keys null =>
    refine ⟨.null, rfl, ?_⟩
    have happly := Layers.withOverride_eq_ok_iff.1 hadd
    obtain ⟨name', raw', hsplit, -, hassign⟩ := applyOverride_eq_ok_iff.1 happly
    obtain ⟨rfl, rfl⟩ := Prod.mk.inj (Option.some.inj (assignment.symm.trans hsplit))
    rw [null] at hassign
    rw [← keys]
    exact lookup?_assignAt? hwell hassign

theorem Layer.GivesNull.lookup?_eq_none_iff {path : List Value} {layers layers' : Layers}
    {layer : Layer} (h : layer.GivesNull path) (hpath : path ≠ [])
    (hwell : layers.merged.WellFormed) (hadd : layer.addTo layers = .ok layers') :
    layers'.merged.lookup? path = none ↔ layer.finds path layers.merged = true := by
  obtain ⟨given, -, hleft⟩ := h.lookup?_addTo hpath hwell hadd
  rw [hleft]
  split <;> simp_all

theorem Layer.GivesNull.isNull_of_lookup? {path : List Value} {layers layers' : Layers}
    {layer : Layer} {left : Value} (h : layer.GivesNull path) (hpath : path ≠ [])
    (hwell : layers.merged.WellFormed) (hadd : layer.addTo layers = .ok layers')
    (hleft : layers'.merged.lookup? path = some left) : left.isNull = true := by
  obtain ⟨given, hgiven, hlookup⟩ := h.lookup?_addTo hpath hwell hadd
  rw [hleft] at hlookup
  split at hlookup
  · cases hlookup
  · exact Option.some.inj hlookup ▸ hgiven

/-- A key that is not there is found by no layer. -/
theorem Layer.finds_eq_false {path : List Value} {root : Value} (h : root.lookup? path = none)
    (layer : Layer) : layer.finds path root = false := by
  cases layer with
  | document source =>
    cases hopen : root.open? path with
    | none =>
      rw [Layer.finds, hopen]
      rfl
    | some found =>
      rw [lookup?_of_open? hopen] at h
      cases h
  | override expression =>
    rw [Layer.finds, h]
    rfl

/-- Without tags every layer finds what is there. -/
theorem Layer.GivesNull.finds_eq {path : List Value} {root : Value} {layer : Layer}
    (h : layer.GivesNull path) (hroot : Sound root) (hplain : layer.isPlain = true) :
    layer.finds path root = (root.lookup? path).isSome := by
  cases h with
  | @document source tree given parsed found null =>
    have hnoTag : tree.Everywhere NoTag :=
      everywhere_noTag (by simpa [isPlain, parsed] using hplain)
    rw [Layer.finds, parsed, Option.bind_some, open?_eq_lookup? hnoTag, found,
      open?_eq_lookup? hroot.noTag]
    exact Bool.and_true _
  | override assignment keys null => rfl

/-- After nulls in a row that started with a key that is there, the key is gone exactly
if their number is odd. -/
theorem lookup?_foldlM_nulls {path : List Value} {start built : Layers} {nulls : List Layer}
    (hpath : path ≠ []) (hstart : Sound start.merged)
    (hplain : ∀ layer ∈ nulls, layer.isPlain = true)
    (hnulls : ∀ layer ∈ nulls, layer.GivesNull path)
    (hadd : nulls.foldlM Layer.addTo start = .ok built) :
    built.merged.lookup? path = none ↔ (start.merged.lookup? path = none ↔ Even nulls.length) := by
  induction nulls generalizing start with
  | nil =>
    obtain rfl := Except.ok.inj hadd
    simp
  | cons layer rest ih =>
    obtain ⟨hplainHead, hplainRest⟩ := List.forall_mem_cons.1 hplain
    obtain ⟨hnull, hnullsRest⟩ := List.forall_mem_cons.1 hnulls
    rw [List.foldlM_cons] at hadd
    obtain ⟨between, hhead, htail⟩ := bind_eq_ok_iff.1 hadd
    have hstep := hnull.lookup?_eq_none_iff hpath hstart.wellFormed hhead
    rw [hnull.finds_eq hstart hplainHead, Option.isSome_iff_ne_none] at hstep
    rw [ih (hstart.addTo hplainHead hhead) hplainRest hnullsRest htail, hstep,
      List.length_cons, Nat.even_add_one]
    tauto

/-- A null for a key drops it exactly if the layer comes upon the key, whatever layers
have set before, and else the null is kept. So a second null in a row puts a null where
the first one had dropped the key, and of any number of them every other one does. -/
theorem null_drops_key_iff_found (path : List Value) (earlier : List Layer) (layers : Layers)
    (hpath : path ≠ []) (hreached : earlier.foldlM Layer.addTo Layers.defaults = .ok layers) :
    (∀ (layer : Layer) (layers' : Layers), layer.GivesNull path →
      layer.addTo layers = .ok layers' →
      (layers'.merged.lookup? path = none ↔ layer.finds path layers.merged = true) ∧
      (∀ left, layers'.merged.lookup? path = some left → left.isNull = true) ∧
      ∀ (again : Layer) (layers'' : Layers), again.GivesNull path →
        again.addTo layers' = .ok layers'' → layer.finds path layers.merged = true →
        ∃ left, layers''.merged.lookup? path = some left ∧ left.isNull = true) ∧
    ∀ (nulls : List Layer) (built : Layers), (∀ layer ∈ earlier, layer.isPlain = true) →
      (∀ layer ∈ nulls, layer.isPlain = true ∧ layer.GivesNull path) →
      nulls.foldlM Layer.addTo layers = .ok built →
      (layers.merged.lookup? path).isSome = true →
      (built.merged.lookup? path = none ↔ Odd nulls.length) := by
  have hwell := wellFormed_foldlM_addTo Layers.sound_defaults.wellFormed hreached
  refine ⟨fun layer layers' hnull hadd => ⟨?_, ?_, ?_⟩, ?_⟩
  · exact hnull.lookup?_eq_none_iff hpath hwell hadd
  · exact fun left hleft => hnull.isNull_of_lookup? hpath hwell hadd hleft
  · intro again layers'' hagain hadd' hfinds
    have hgone := (hnull.lookup?_eq_none_iff hpath hwell hadd).2 hfinds
    have hwell' := wellFormed_addTo hwell hadd
    have hnotFound := Layer.finds_eq_false hgone again
    cases hleft : layers''.merged.lookup? path with
    | none =>
      rw [(hagain.lookup?_eq_none_iff hpath hwell' hadd').1 hleft] at hnotFound
      cases hnotFound
    | some left => exact ⟨left, rfl, hagain.isNull_of_lookup? hpath hwell' hadd' hleft⟩
  · intro nulls built hplain hnulls hadd hpresent
    have hsound := Layers.sound_defaults.foldlM_addTo hplain hreached
    rw [lookup?_foldlM_nulls hpath hsound (fun layer hmem => (hnulls layer hmem).1)
      (fun layer hmem => (hnulls layer hmem).2) hadd, ← Nat.not_even_iff_odd]
    rw [Option.isSome_iff_ne_none] at hpresent
    tauto

/-- The switch for debugging is in the defaults. One null restores its default, a second
one stands in the way of the configuration. -/
theorem null_drops_key_iff_found_of_debug :
    ∃ once twice, Layers.defaults.withOverride "debug=null" = .ok once ∧
      once.withOverride "debug=null" = .ok twice ∧
      once.merged.lookup? [.text "debug"] = none ∧ once.build.isOk = true ∧
      (∃ left, twice.merged.lookup? [.text "debug"] = some left ∧ left.isNull = true) ∧
      twice.build.isOk = false := by
  have hadds : ((Layers.defaults.withOverride "debug=null").bind
      (·.withOverride "debug=null")).isOk = true := by decide +kernel
  obtain ⟨twice, hadds⟩ := isOk_iff.1 hadds
  obtain ⟨once, honce, htwice⟩ := bind_eq_ok_iff.1 hadds
  have hassignment : splitAssignment? "debug=null" = some ("debug", "null") := by decide +kernel
  have hkeys : pathKeys "debug" = ["debug"] := by decide +kernel
  have hnull : Layer.GivesNull [.text "debug"] (.override "debug=null") :=
    .override hassignment (congrArg (List.map Value.text) hkeys) scalarOf_null
  have hfinds : Layer.finds [.text "debug"] Layers.defaults.merged (.override "debug=null") =
      true := by decide +kernel
  have hbuilds : ((Layers.defaults.withOverride "debug=null").bind Layers.build).isOk = true := by
    decide +kernel
  have hfails : (((Layers.defaults.withOverride "debug=null").bind
      (·.withOverride "debug=null")).bind Layers.build).isOk = false := by decide +kernel
  obtain ⟨hgone, -, hback⟩ := (null_drops_key_iff_found [.text "debug"] [] Layers.defaults
    (List.cons_ne_nil _ _) rfl).1 (.override "debug=null") once hnull honce
  rw [honce] at hbuilds hfails
  change (once.build).isOk = true at hbuilds
  change ((once.withOverride "debug=null").bind Layers.build).isOk = false at hfails
  rw [htwice] at hfails
  exact ⟨once, twice, honce, htwice, hgone.2 hfinds, hbuilds,
    hback (.override "debug=null") twice hnull htwice hfinds, hfails⟩

end Values

end ServerManifests
