import ServerManifests.Proofs.Configuration.Blocks
import ServerManifests.Proofs.Values.Layers

/-!
A null in a further layer takes a field back. It drops the entry of the field, so the
field is read as if no layer had set it, and all others are read as before. What a
field is then is its default, but for the switch of the secrets store: the store
as a whole is on by default, and within a store that is given the switch is off.
-/
namespace ServerManifests.Values

open ServerManifests.Configuration Yaml Value

variable {S T α : Type}

/-- The entry at the end of a path is dropped, under any tags. -/
inductive Dropped : List String → Value → Value → Prop
  | last {name : String} {es : Entries} {value value' given : Value}
      (before : value.untagged = .map es) (present : es.find? (.text name) = some given)
      (after : value'.untagged = .map (es.remove (.text name))) : Dropped [name] value value'
  | nested {name : String} {rest : List String} {es : Entries} {value value' child child' : Value}
      (before : value.untagged = .map es) (present : es.find? (.text name) = some child)
      (dropped : Dropped rest child child')
      (after : value'.untagged = .map (es.replace (.text name) child')) :
      Dropped (name :: rest) value value'

/-- A further layer that sets the key at the end of a path to null, where it is there:
a document with nothing else in it, or an override. -/
inductive ClearsKey (path : List String) (layers : Layers) :
    (Layers → Except Failure Layers) → Prop
  | document {text : String} {value : Value} (parsed : Value.parse? text = some (nest path value))
      (null : value.isNull = true) (present : (layers.merged.get? path).isSome = true) :
      ClearsKey path layers (·.withDocument text)
  | override {expression given raw : String}
      (assignment : splitAssignment? expression = some (given, raw))
      (keys : pathKeys given = path) (null : scalarOf raw = .null)
      (present : (reach? path layers.merged).isSome = true) :
      ClearsKey path layers (·.withOverride expression)

/-- Merging a null into a key that is there drops it. -/
theorem dropped_merge {path : List String} {value root : Value} (hpath : path ≠ [])
    (hnull : value.isNull = true) (hpresent : (root.get? path).isSome = true) :
    Dropped path root (merge root (nest path value)) := by
  induction path generalizing root with
  | nil => exact absurd rfl hpath
  | cons name rest ih =>
    cases root with
    | map es =>
      obtain ⟨found, hfound⟩ := Option.isSome_iff_exists.1 hpresent
      obtain ⟨child, hchild, hfound⟩ := Option.bind_eq_some_iff.1 hfound
      change Dropped _ _ (merge (.map es) (.map [(.text name, nest rest value)]))
      rw [merge_map_singleton]
      unfold mergeEntry
      rw [hchild]
      dsimp only
      cases rest with
      | nil =>
        rw [nest, if_pos hnull]
        exact .last rfl hchild rfl
      | cons next rest =>
        have hdropped : Dropped (next :: rest) child (merge child (nest (next :: rest) value)) := by
          refine ih (List.cons_ne_nil next rest) ?_
          rw [hfound]
          rfl
        have hkept : (nest (next :: rest) value).isNull = false := rfl
        rw [hkept, if_neg Bool.false_ne_true]
        exact .nested rfl hchild hdropped rfl
    | _ => cases hpresent

/-- Assigning a null to a key that is there is accepted and drops it. -/
theorem exists_dropped_assignAt? {path : List String} {root : Value} (hpath : path ≠ [])
    (hpresent : (reach? path root).isSome = true) :
    ∃ root', assignAt? .null path root = some root' ∧ Dropped path root root' := by
  induction path generalizing root with
  | nil => exact absurd rfl hpath
  | cons name rest ih =>
    rw [reach?] at hpresent
    split at hpresent
    · next es hes =>
      obtain ⟨found, hfound⟩ := Option.isSome_iff_exists.1 hpresent
      obtain ⟨child, hchild, hfound⟩ := Option.bind_eq_some_iff.1 hfound
      cases rest with
      | nil =>
        have hassign : Entries.assign es (.text name) .null = Entries.remove (.text name) es := by
          unfold Entries.assign
          rw [hchild]
          rfl
        obtain ⟨root', hroot', hes'⟩ : ∃ root', assignAt? .null [name] root = some root' ∧
            root'.untagged = .map (Entries.remove (.text name) es) :=
          exists_withEntries? hes (congrArg some hassign)
        exact ⟨root', hroot', .last hes hchild hes'⟩
      | cons next rest =>
        obtain ⟨child', hchild', hdropped⟩ : ∃ child', assignAt? .null (next :: rest) child =
            some child' ∧ Dropped (next :: rest) child child' := by
          refine ih (List.cons_ne_nil next rest) ?_
          rw [hfound]
          rfl
        have hinsert : Entries.insert es (.text name) child' =
            Entries.replace es (.text name) child' := by
          unfold Entries.insert
          rw [hchild]
        have hassign : (assignAt? .null (next :: rest)
            ((Entries.find? es (.text name)).getD (.map []))).map
              (Entries.insert es (.text name) ·) =
              some (Entries.replace es (.text name) child') := by
          rw [hchild, Option.getD_some, hchild', Option.map_some, hinsert]
        obtain ⟨root', hroot', hes'⟩ : ∃ root', assignAt? .null (name :: next :: rest) root =
            some root' ∧ root'.untagged = .map (Entries.replace es (.text name) child') :=
          exists_withEntries? hes hassign
        exact ⟨root', hroot', .nested hes hchild hdropped hes'⟩
    · cases hpresent

/-- What is read for a block and for the whole, before and after an entry below the
block is dropped. -/
structure Reaches (names : List String) (r : Record T) (block : Lens Configuration T) : Prop where
  lawful : r.Lawful
  read : ∀ {name : String} {rest : List String} {value value' : Value} {config : Configuration},
    Dropped (names ++ name :: rest) value value' → record.read value = .ok config →
    ∃ child child', Dropped (name :: rest) child child' ∧ r.read child = .ok (block.get config) ∧
      ∀ part, r.read child' = .ok part → record.read value' = .ok (block.set part config)

theorem reaches_whole : Reaches [] record .whole where
  lawful := Configuration.lawful
  read hdropped hread := ⟨_, _, hdropped, hread, fun _ hread' => hread'⟩

theorem Reaches.embedded {names : List String} {r : Record S} {block : Lens Configuration S}
    {name : String} {inner : Record T} {part : Lens S T} (h : Reaches names r block)
    (hembeds : r.Embeds name inner part) (hlawful : inner.Lawful) :
    Reaches (names ++ [name]) inner (block.comp part) where
  lawful := hlawful
  read := by
    intro key rest value value' config hdropped hread
    rw [List.append_assoc] at hdropped
    obtain ⟨outer, outer', houter, houterRead, hwhole⟩ := h.read hdropped hread
    cases houter with
    | nested before present dropped after =>
      refine ⟨_, _, dropped, hembeds.read_given h.lawful before present houterRead,
        fun inside hinside => ?_⟩
      obtain ⟨field, rfl, hpart, hreads⟩ := hembeds.exists_hasPart
      refine hwhole _ (hpart.read_replace h.lawful before present houterRead ?_ after)
      rw [hreads, hinside]
      rfl

theorem Block.reaches {names : List String} {r : Record T} {block : Lens Configuration T}
    (h : Block names r block) : Reaches names r block := by
  cases h with
  | whole => exact reaches_whole
  | image => exact reaches_whole.embedded embeds_image Image.lawful
  | autoscaling => exact reaches_whole.embedded embeds_autoscaling Autoscaling.lawful
  | database => exact reaches_whole.embedded embeds_database Database.lawful
  | secretsStore => exact reaches_whole.embedded embeds_secretsStore SecretsStore.lawful
  | backupSecretsStore =>
    exact reaches_whole.embedded embeds_backupSecretsStore SecretsStore.lawful
  | ingress => exact reaches_whole.embedded embeds_ingress Ingress.lawful
  | tls =>
    exact (reaches_whole.embedded embeds_ingress Ingress.lawful).embedded Ingress.embeds_tls
      IngressTls.lawful
  | service => exact reaches_whole.embedded embeds_service Service.lawful
  | serviceAccount => exact reaches_whole.embedded embeds_serviceAccount ServiceAccount.lawful

/-- A layer that clears a key is accepted. -/
theorem ClearsKey.exists_dropped {path : List String} {layers : Layers}
    {next : Layers → Except Failure Layers} (h : ClearsKey path layers next) (hpath : path ≠ [])
    (hnamed : path.any String.isEmpty = false) :
    ∃ layers', next layers = .ok layers' ∧ Dropped path layers.merged layers'.merged := by
  cases h with
  | @document text value parsed null present =>
    refine ⟨⟨merge layers.merged (nest path value)⟩, ?_, dropped_merge hpath null present⟩
    cases path with
    | nil => exact absurd rfl hpath
    | cons name rest =>
      unfold Layers.withDocument
      rw [parsed]
      rfl
  | @override expression given raw assignment keys null present =>
    obtain ⟨root, hassign, hdropped⟩ := exists_dropped_assignAt? hpath present
    refine ⟨⟨root⟩, Layers.withOverride_eq_ok_iff.2 ?_, hdropped⟩
    refine applyOverride_eq_ok_iff.2 ⟨given, raw, assignment, ?_, ?_⟩
    · rw [keys]
      exact hnamed
    · rw [keys, null]
      exact hassign

/-- Where a field that is taken back has its value from. The switch of the secrets
store is on in the defaults, but off in a store that does not say. -/
def fallback (path : List String) : Configuration :=
  if path = ["secretsStore", "enabled"] then { secretsStore := { enabled := false } } else {}

/-- The switch is the only field in which the defaults of a block are not those of
the configuration. -/
theorem get_initial_eq {names : List String} {r : Record T} {block : Lens Configuration T}
    {field : Field T} {lens : Lens T α} (hblock : Block names r block)
    (hpart : r.HasPart field lens) :
    lens.get r.initial = lens.get (block.get (fallback (names ++ [field.name]))) := by
  cases hblock with
  | secretsStore =>
    obtain ⟨switch, hswitch, hname, hread⟩ : ∃ switch ∈ SecretsStore.record.fields,
        switch.name = "enabled" ∧
          switch.read (.bool true) = .ok fun store => { store with enabled := true } :=
      ⟨_, List.mem_cons_self, rfl, rfl⟩
    by_cases hfield : field.name = "enabled"
    · rw [hfield]
      rfl
    · have hne : switch.name ≠ field.name := fun heq => hfield (heq.symm.trans hname)
      have hdefault : fallback (["secretsStore"] ++ [field.name]) = {} := by
        simp [fallback, hfield]
      rw [hdefault]
      exact ((hpart.apart switch hswitch hne).get_eq hread {}).symm
  | _ =>
    rw [fallback, if_neg (by simp)]
    rfl

/-- A layer that sets a field to null is accepted and gives the field its fallback,
and nothing else changes. -/
theorem null_takes_field_back (layers : Layers) (config : Configuration) (names : List String)
    (T : Type) (r : Record T) (block : Lens Configuration T) (field : Field T)
    (next : Layers → Except Failure Layers) (hbuild : layers.build = .ok config)
    (hblock : Block names r block) (hfield : field ∈ r.fields)
    (hnext : ClearsKey (names ++ [field.name]) layers next) :
    ∃ (α : Type) (lens : Lens T α), field.Holds lens ∧
      ∃ layers', next layers = .ok layers' ∧
        layers'.build = .ok ((block.comp lens).copy (fallback (names ++ [field.name])) config) := by
  have hreaches := Block.reaches hblock
  obtain ⟨α, lens, hpart⟩ := hreaches.lawful.exists_hasPart hfield
  refine ⟨α, lens, hpart.holds, ?_⟩
  have hnamed : (names ++ [field.name]).any String.isEmpty = false := by
    rw [List.any_append, hblock.named, List.any_cons, hreaches.lawful.named field hfield]
    rfl
  obtain ⟨layers', hlayers', hdropped⟩ := hnext.exists_dropped (by simp) hnamed
  refine ⟨layers', hlayers', mapError_eq_ok_iff.2 ?_⟩
  obtain ⟨child, child', hchild, hread, hwhole⟩ :=
    hreaches.read hdropped (mapError_eq_ok_iff.1 hbuild)
  cases hchild with
  | last before present after =>
    have hcleared := hpart.read_remove hreaches.lawful before present hread after
    refine (hwhole _ hcleared).trans ?_
    unfold Lens.copy
    rw [get_initial_eq hblock hpart]
    rfl
  | nested before present dropped after => cases dropped

/-- A null for the switch of the secrets store turns the store off, which is on by
default. -/
theorem null_takes_field_back_of_switch :
    ∃ layers config, Layers.defaults.withOverride "secretsStore.enabled=null" = .ok layers ∧
      layers.build = .ok config ∧ config.secretsStore.enabled = false ∧
      ({} : Configuration).secretsStore.enabled = true := by
  have hbuilds : Layers.defaults.build.isOk = true := by decide +kernel
  obtain ⟨config, hbuild⟩ := isOk_iff.1 hbuilds
  have hnull : scalarOf "null" = .null :=
    (isNull_iff_of_noTag (noTag_of_isScalar (scalarOf_isScalar _))).1 (by decide +kernel)
  have hassignment : splitAssignment? "secretsStore.enabled=null" =
      some ("secretsStore.enabled", "null") := by decide +kernel
  have hkeys : pathKeys "secretsStore.enabled" = ["secretsStore", "enabled"] := by decide +kernel
  have hclears : ClearsKey ["secretsStore", "enabled"] Layers.defaults
      (·.withOverride "secretsStore.enabled=null") :=
    .override hassignment hkeys hnull (by decide +kernel)
  have hswitch : ((Layers.defaults.withOverride "secretsStore.enabled=null").bind
      Layers.build).toOption.map (·.secretsStore.enabled) = some false := by decide +kernel
  obtain ⟨α, lens, -, layers, hlayers, hbuild'⟩ := null_takes_field_back Layers.defaults config
    ["secretsStore"] SecretsStore SecretsStore.record secretsStorePart _ _ hbuild .secretsStore
    List.mem_cons_self hclears
  rw [hlayers, Except.bind, hbuild'] at hswitch
  exact ⟨layers, _, hlayers, hbuild', Option.some.inj hswitch, rfl⟩

end ServerManifests.Values
