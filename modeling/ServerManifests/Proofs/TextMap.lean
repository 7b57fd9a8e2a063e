import ServerManifests.TextMap

/-!
Maps from texts as functions: which value a key has after each operation.
-/
namespace ServerManifests.TextMap

variable {α β : Type}

theorem place_place (key : String) (value value' : α) (es : List (String × α)) :
    place key value (place key value' es) = place key value es := by
  induction es with
  | nil => simp [place]
  | cons e rest ih =>
    unfold place
    by_cases hlt : key < e.1
    · simp [hlt, place]
    · by_cases hgt : e.1 < key
      · simp [hlt, hgt, place, ih]
      · simp [hlt, hgt, place]

/-- Another key's value does not remove an entry. -/
theorem mem_place_of_ne {key : String} {value : α} {es : List (String × α)} {e : String × α}
    (h : e ∈ es) (hne : e.1 ≠ key) : e ∈ place key value es := by
  induction es with
  | nil => exact nomatch h
  | cons first rest ih =>
    unfold place
    by_cases hlt : key < first.1
    · rw [if_pos hlt]
      exact List.mem_cons_of_mem _ h
    · rw [if_neg hlt]
      by_cases hgt : first.1 < key
      · rw [if_pos hgt]
        rcases List.mem_cons.1 h with rfl | h
        · exact List.mem_cons_self
        · exact List.mem_cons_of_mem _ (ih h)
      · have heq : first.1 = key := String.le_antisymm (String.not_lt.1 hlt) (String.not_lt.1 hgt)
        rw [if_neg hgt]
        rcases List.mem_cons.1 h with rfl | h
        · exact absurd heq hne
        · exact List.mem_cons_of_mem _ h

theorem insert_insert (m : TextMap α) (key : String) (value value' : α) :
    (m.insert key value').insert key value = m.insert key value := by
  unfold insert
  simp only [place_place]

/-- A key above all others has its place after them. -/
theorem place_of_lt {key : String} {value : α} {es : List (String × α)}
    (h : ∀ e ∈ es, e.1 < key) : place key value es = es ++ [(key, value)] := by
  induction es with
  | nil => rfl
  | cons e rest ih =>
    obtain ⟨hlt, hrest⟩ := List.forall_mem_cons.1 h
    have hnot : ¬ key < e.1 := fun hgt => String.lt_irrefl _ (String.lt_trans hlt hgt)
    unfold place
    rw [if_neg hnot, if_pos hlt, ih hrest]
    rfl

/-- A key below all others has no value. -/
theorem lookup_eq_none_of_lt {key : String} {es : List (String × α)} (h : ∀ e ∈ es, key < e.1) :
    es.lookup key = none := by
  rw [List.lookup_eq_none_iff]
  intro e hmem
  have hne : key ≠ e.1 := fun heq => String.lt_irrefl _ (heq ▸ h e hmem)
  simpa using hne

/-- What a key has is its entry. -/
theorem get?_eq_some_iff (m : TextMap α) (key : String) (value : α) :
    m.get? key = some value ↔ (key, value) ∈ m.entries := by
  unfold get?
  rw [List.lookup_eq_some_iff]
  constructor
  · rintro ⟨before, after, heq, -⟩
    rw [heq]
    exact List.mem_append_right _ List.mem_cons_self
  · intro hmem
    obtain ⟨before, after, heq⟩ := List.append_of_mem hmem
    refine ⟨before, after, heq, fun e he => ?_⟩
    have hordered := m.ordered
    rw [heq] at hordered
    have hlt : e.1 < key := (List.pairwise_append.1 hordered).2.2 e he _ List.mem_cons_self
    have hne : key ≠ e.1 := fun hkey => String.lt_irrefl _ (hkey ▸ hlt)
    exact bne_iff_ne.2 hne

theorem nodup_keys (m : TextMap α) : m.keys.Nodup := by
  apply List.pairwise_map.2
  refine m.ordered.imp ?_
  intro e e' hlt heq
  exact String.lt_irrefl _ (heq ▸ hlt)

private theorem not_lt_of_lookup {e e' : String × α} {rest rest' : List (String × α)}
    (hes' : (e' :: rest').Pairwise fun a b => a.1 < b.1)
    (h : ∀ key, (e :: rest).lookup key = (e' :: rest').lookup key) : ¬ e.1 < e'.1 := by
  intro hlt
  have hbelow : ∀ e'' ∈ e' :: rest', e.1 < e''.1 := by
    intro e'' hmem
    obtain rfl | hmem := List.mem_cons.1 hmem
    · exact hlt
    · exact String.lt_trans hlt ((List.pairwise_cons.1 hes').1 e'' hmem)
  have hvalue := h e.1
  rw [lookup_eq_none_of_lt hbelow, lookup_cons_eq, if_pos rfl] at hvalue
  cases hvalue

private theorem entries_eq_of_lookup {es es' : List (String × α)}
    (hes : es.Pairwise fun a b => a.1 < b.1) (hes' : es'.Pairwise fun a b => a.1 < b.1)
    (h : ∀ key, es.lookup key = es'.lookup key) : es = es' := by
  induction es generalizing es' with
  | nil =>
    cases es' with
    | nil => rfl
    | cons e' rest' => simpa [lookup_cons_eq] using h e'.1
  | cons e rest ih =>
    cases es' with
    | nil => simpa [lookup_cons_eq] using h e.1
    | cons e' rest' =>
      obtain ⟨hfirst, hrest⟩ := List.pairwise_cons.1 hes
      obtain ⟨hfirst', hrest'⟩ := List.pairwise_cons.1 hes'
      have hkey : e.1 = e'.1 := String.le_antisymm
        (String.not_lt.1 (not_lt_of_lookup hes fun key => (h key).symm))
        (String.not_lt.1 (not_lt_of_lookup hes' h))
      have hvalue : e.2 = e'.2 := by simpa [lookup_cons_eq, hkey] using h e.1
      have hothers : rest = rest' := by
        refine ih hrest hrest' fun key => ?_
        by_cases he : key = e.1
        · rw [he, lookup_eq_none_of_lt hfirst, lookup_eq_none_of_lt (hkey ▸ hfirst')]
        · simpa [lookup_cons_eq, he, hkey ▸ he] using h key
      rw [Prod.ext hkey hvalue, hothers]

/-- Maps with the same values are equal. -/
theorem ext_get? {m m' : TextMap α} (h : ∀ key, m.get? key = m'.get? key) : m = m' := by
  obtain ⟨entries, hordered⟩ := m
  obtain ⟨entries', hordered'⟩ := m'
  obtain rfl := entries_eq_of_lookup hordered hordered' h
  rfl

theorem get?_filterMap (f : α → Option β) (m : TextMap α) (key : String) :
    (m.filterMap f).get? key = (m.get? key).bind f := by
  obtain ⟨entries, hordered⟩ := m
  change (entries.filterMap fun e => (f e.2).map (e.1, ·)).lookup key =
    (entries.lookup key).bind f
  induction entries with
  | nil => rfl
  | cons e rest ih =>
    obtain ⟨hfirst, hrest⟩ := List.pairwise_cons.1 hordered
    rw [List.filterMap_cons, lookup_cons_eq]
    by_cases hkey : key = e.1
    · subst hkey
      have hnone : rest.lookup e.1 = none := lookup_eq_none_of_lt hfirst
      cases hf : f e.2 with
      | none =>
        have hskip := ih hrest
        rw [hnone] at hskip
        simpa [hf] using hskip
      | some b => simp [hf]
    · rw [if_neg hkey, ← ih hrest]
      cases hf : f e.2 with
      | none => rfl
      | some b =>
        change List.lookup key ((e.1, b) :: _) = _
        rw [lookup_cons_eq, if_neg hkey]

@[simp]
theorem entries_map (f : α → β) (m : TextMap α) :
    (m.map f).entries = m.entries.map fun e => (e.1, f e.2) := by
  change m.entries.filterMap (fun e => some (e.1, f e.2)) = _
  rw [List.filterMap_eq_map']

/-- Values that are all kept are the values. -/
theorem filterMap_map_some (m : TextMap α) : (m.map some).filterMap id = m := by
  refine ext_get? fun key => ?_
  unfold map
  rw [get?_filterMap, get?_filterMap]
  cases m.get? key <;> rfl

end ServerManifests.TextMap
