import ServerManifests.Proofs.Yaml.Tree
import ServerManifests.Yaml.Document

/-!
Values of documents are well formed: a key that is there already fails the whole
document, whatever its place in the text.
-/
namespace ServerManifests.Yaml

namespace Node

variable {α β : Type} {P : α → Prop} {Q : β → Prop}

/-- Every value that a composition can end with has a property. -/
def Yields (P : α → Prop) (x : Compose α) : Prop :=
  ∀ followed a followed', x.run followed = some (a, followed') → P a

theorem yields_pure {a : α} (h : P a) : Yields P (pure a : Compose α) := by
  intro followed a' followed' hrun
  obtain ⟨rfl, rfl⟩ := Prod.mk.inj (Option.some.inj hrun)
  exact h

theorem yields_failure : Yields P (failure : Compose α) := by
  intro followed a followed' hrun
  cases hrun

theorem yields_lift {x : Option α} (h : ∀ a, x = some a → P a) :
    Yields P (StateT.lift x : Compose α) := by
  intro followed a followed' hrun
  obtain ⟨a', ha', hpair⟩ := Option.bind_eq_some_iff.1 hrun
  obtain ⟨rfl, rfl⟩ := Prod.mk.inj (Option.some.inj hpair)
  exact h _ ha'

theorem yields_bind {x : Compose α} {f : α → Compose β} (hx : Yields P x)
    (hf : ∀ a, P a → Yields Q (f a)) : Yields Q (x >>= f) := by
  intro followed b followed' hrun
  obtain ⟨⟨a, between⟩, ha, hb⟩ := Option.bind_eq_some_iff.1 hrun
  exact hf a (hx _ _ _ ha) _ _ _ hb

theorem yields_any (x : Compose α) : Yields (fun _ => True) x := fun _ _ _ _ => trivial

theorem yields_mapM {f : β → Compose α} (hf : ∀ b, Yields P (f b)) (bs : List β) :
    Yields (fun as => ∀ a ∈ as, P a) (bs.mapM f) := by
  induction bs with
  | nil => exact yields_pure (by simp)
  | cons b rest ih =>
    rw [List.mapM_cons]
    refine yields_bind (hf b) fun a ha => yields_bind ih fun as has => yields_pure ?_
    intro a' ha'
    rcases List.mem_cons.1 ha' with rfl | ha'
    · exact ha
    · exact has a' ha'

theorem yields_foldlM {f : α → β → Compose α} (hf : ∀ a b, P a → Yields P (f a b))
    (bs : List β) {a : α} (ha : P a) : Yields P (bs.foldlM f a) := by
  induction bs generalizing a with
  | nil => exact yields_pure ha
  | cons b rest ih =>
    rw [List.foldlM_cons]
    exact yields_bind (hf a b ha) fun a' ha' => ih ha'

end Node

namespace Value

open Node

theorem ofInteger?_isScalar {n : Int} {otherwise value : Value} (hother : otherwise.IsScalar)
    (h : ofInteger? n otherwise = some value) : value.IsScalar := by
  unfold ofInteger? at h
  split at h
  · obtain rfl := Option.some.inj h
    trivial
  · split at h
    · cases h
    · obtain rfl := Option.some.inj h
      exact hother

theorem ofPlain?_isScalar {s : String} {value : Value} (h : ofPlain? s = some value) :
    value.IsScalar := by
  unfold ofPlain? at h
  dsimp only at h
  split at h
  · obtain rfl := Option.some.inj h
    trivial
  · split at h
    · obtain rfl := Option.some.inj h
      trivial
    · split at h
      · refine ofInteger?_isScalar ?_ h
        split
        · trivial
        · split <;> trivial
      · obtain rfl := Option.some.inj h
        split
        · trivial
        · split <;> trivial

theorem untaggedScalar?_isScalar {text : String} {plain : Bool} {value : Value}
    (h : untaggedScalar? text plain = some value) : value.IsScalar := by
  unfold untaggedScalar? at h
  split at h
  · exact ofPlain?_isScalar h
  · obtain rfl := Option.some.inj h
    trivial

theorem scalarValue?_wellFormed {tag : Option TagMeaning} {text : String} {plain : Bool}
    {value : Value} (h : scalarValue? tag text plain = some value) : value.WellFormed := by
  unfold scalarValue? at h
  split at h
  · exact wellFormed_of_isScalar (untaggedScalar?_isScalar h)
  · obtain ⟨content, hcontent, rfl⟩ := Option.map_eq_some_iff.1 h
    exact everywhere_tagged_iff.2
      ⟨trivial, wellFormed_of_isScalar (untaggedScalar?_isScalar hcontent)⟩
  all_goals apply wellFormed_of_isScalar
  · obtain rfl := Option.some.inj h
    trivial
  · split at h
    · obtain rfl := Option.some.inj h
      trivial
    · cases h
  all_goals
    obtain ⟨content, -, rfl⟩ := Option.map_eq_some_iff.1 h
    trivial

theorem withTag_wellFormed {tag : Option TagMeaning} {value : Value} (h : value.WellFormed) :
    (withTag tag value).WellFormed := by
  unfold withTag
  split
  · exact everywhere_tagged_iff.2 ⟨trivial, h⟩
  · exact h

theorem yields_value? (targets : Targets) (depth : Nat) (node : Node Nat) :
    Yields WellFormed (node.value? targets depth) := by
  induction depth generalizing node with
  | zero =>
    unfold value?
    refine yields_bind (yields_any _) fun node _ => ?_
    split
    · exact yields_lift fun value h => scalarValue?_wellFormed h
    · exact yields_failure
  | succ depth ih =>
    unfold value?
    refine yields_bind (yields_any _) fun node _ => ?_
    split
    · exact yields_lift fun value h => scalarValue?_wellFormed h
    · refine yields_bind (yields_mapM (ih ·) _) fun items hitems => yields_pure ?_
      exact withTag_wellFormed (everywhere_list_iff.2 ⟨trivial, hitems⟩)
    · refine yields_bind (P := fun entries => (map entries).WellFormed) ?_ fun entries h =>
        yields_pure (withTag_wellFormed h)
      refine yields_foldlM ?_ _ (everywhere_map_iff.2 ⟨List.Pairwise.nil, by simp⟩)
      rintro done ⟨key, content⟩ hdone
      refine yields_bind (ih key) fun key hkey => ?_
      split
      · exact yields_bind (P := fun _ => False) yields_failure fun _ h => h.elim
      · rename_i hfound
        have hnew : Entries.find? done key = none := by simpa using hfound
        refine yields_bind (ih content) fun content hcontent => yields_pure ?_
        exact everywhere_append hdone hkey hcontent (Entries.Distinct.append_new hdone.here hnew)
    · exact yields_failure

/-- No mapping of a document has a key twice. -/
theorem parse?_wellFormed {text : String} {value : Value} (h : parse? text = some value) :
    value.WellFormed := by
  unfold parse? at h
  obtain ⟨tokens, -, h⟩ := Option.bind_eq_some_iff.1 h
  obtain ⟨root, -, h⟩ := Option.bind_eq_some_iff.1 h
  cases root with
  | none =>
    obtain rfl := Option.some.inj h
    exact wellFormed_of_isScalar trivial
  | some node =>
    obtain ⟨⟨root, numbers⟩, -, h⟩ := Option.bind_eq_some_iff.1 h
    obtain ⟨⟨content, followed⟩, hrun, h⟩ := Option.bind_eq_some_iff.1 h
    obtain rfl := Option.some.inj h
    exact yields_value? _ _ _ _ _ _ hrun

end Value

end ServerManifests.Yaml
