/-!
When computations that may fail succeed, and where their failures come from.
-/
namespace ServerManifests

variable {ε ε' α β : Type}

theorem bind_eq_ok_iff {x : Except ε α} {f : α → Except ε β} {b : β} :
    (x >>= f) = .ok b ↔ ∃ a, x = .ok a ∧ f a = .ok b := by
  cases x with
  | error e => simp [bind, Except.bind]
  | ok a => simp [bind, Except.bind]

theorem map_eq_ok_iff {x : Except ε α} {f : α → β} {b : β} :
    x.map f = .ok b ↔ ∃ a, x = .ok a ∧ f a = b := by
  cases x with
  | error e => simp [Except.map]
  | ok a => simp [Except.map]

theorem mapError_eq_ok_iff {x : Except ε α} {f : ε → ε'} {a : α} :
    x.mapError f = .ok a ↔ x = .ok a := by
  cases x with
  | error e => exact iff_of_false (fun h => nomatch h) (fun h => nomatch h)
  | ok b =>
    constructor
    · intro h
      exact congrArg Except.ok (Except.ok.inj h)
    · intro h
      exact congrArg Except.ok (Except.ok.inj h)

theorem bind_eq_error_iff {x : Except ε α} {f : α → Except ε β} {e : ε} :
    (x >>= f) = .error e ↔ x = .error e ∨ ∃ a, x = .ok a ∧ f a = .error e := by
  cases x with
  | error e' => simp [bind, Except.bind]
  | ok a => simp [bind, Except.bind]

theorem map_eq_error_iff {x : Except ε α} {f : α → β} {e : ε} :
    x.map f = .error e ↔ x = .error e := by
  cases x with
  | error e' => simp [Except.map]
  | ok a => simp [Except.map]

theorem mapError_eq_error_iff {x : Except ε α} {f : ε → ε'} {e' : ε'} :
    x.mapError f = .error e' ↔ ∃ e, x = .error e ∧ f e = e' := by
  cases x with
  | error e =>
    constructor
    · intro h
      exact ⟨e, rfl, Except.error.inj h⟩
    · rintro ⟨_, h, rfl⟩
      cases h
      rfl
  | ok a => exact iff_of_false (fun h => nomatch h) (fun ⟨_, h, _⟩ => nomatch h)

/-- The first item of a list that has a property. -/
def IsFirst (bad : α → Prop) (items : List α) (item : α) : Prop :=
  ∃ before after, items = before ++ item :: after ∧ (∀ earlier ∈ before, ¬ bad earlier) ∧ bad item

theorem IsFirst.mem {bad : α → Prop} {items : List α} {item : α} (h : IsFirst bad items item) :
    item ∈ items := by
  obtain ⟨before, after, rfl, -⟩ := h
  exact List.mem_append_right _ List.mem_cons_self

theorem IsFirst.of_bad {bad : α → Prop} {items : List α} {item : α} (h : IsFirst bad items item) :
    bad item := by
  obtain ⟨_, _, -, -, hbad⟩ := h
  exact hbad

theorem isFirst_cons_iff {bad : α → Prop} {first item : α} {rest : List α} :
    IsFirst bad (first :: rest) item ↔
      bad first ∧ item = first ∨ ¬ bad first ∧ IsFirst bad rest item := by
  constructor
  · rintro ⟨_ | ⟨earlier, before⟩, after, heq, hbefore, hbad⟩
    · obtain ⟨rfl, rfl⟩ := List.cons.inj heq
      exact .inl ⟨hbad, rfl⟩
    · obtain ⟨rfl, rfl⟩ := List.cons.inj heq
      obtain ⟨hfirst, hbefore⟩ := List.forall_mem_cons.1 hbefore
      exact .inr ⟨hfirst, before, after, rfl, hbefore, hbad⟩
  · rintro (⟨hbad, rfl⟩ | ⟨hfirst, before, after, rfl, hbefore, hbad⟩)
    · exact ⟨[], rest, rfl, List.forall_mem_nil _, hbad⟩
    · exact ⟨first :: before, after, rfl, List.forall_mem_cons.2 ⟨hfirst, hbefore⟩, hbad⟩

theorem exists_isFirst_iff {bad : α → Prop} {items : List α} :
    (∃ item, IsFirst bad items item) ↔ ∃ item ∈ items, bad item := by
  induction items with
  | nil => simp [IsFirst]
  | cons first rest ih =>
    simp only [isFirst_cons_iff, exists_or, exists_and_left, exists_eq, and_true, ih,
      List.mem_cons, or_and_right, exists_eq_left]
    by_cases hfirst : bad first
    · simp [hfirst]
    · simp [hfirst]

theorem isFirst_append_iff {bad : α → Prop} {passed rest : List α} {item : α}
    (hpassed : ∀ a ∈ passed, ¬ bad a) :
    IsFirst bad (passed ++ rest) item ↔ IsFirst bad rest item := by
  induction passed with
  | nil => rfl
  | cons first passed ih =>
    obtain ⟨hfirst, hpassed⟩ := List.forall_mem_cons.1 hpassed
    rw [List.cons_append, isFirst_cons_iff, ih hpassed]
    simp only [hfirst, false_and, false_or, not_false_eq_true, true_and]

theorem isFirst_map_iff {f : α → β} {bad : β → Prop} {items : List α} {b : β} :
    IsFirst bad (items.map f) b ↔ ∃ a, IsFirst (fun a => bad (f a)) items a ∧ f a = b := by
  induction items with
  | nil => simp [IsFirst]
  | cons first rest ih =>
    simp only [List.map_cons, isFirst_cons_iff, ih, or_and_right, exists_or, and_assoc,
      exists_and_left, exists_eq_left]
    rw [eq_comm (a := b)]

theorem find?_eq_some_iff_isFirst {p : α → Bool} {items : List α} {item : α} :
    items.find? p = some item ↔ IsFirst (p · = true) items item := by
  rw [List.find?_eq_some_iff_append]
  constructor
  · rintro ⟨hitem, before, after, heq, hbefore⟩
    exact ⟨before, after, heq, fun earlier hmem => by simpa using hbefore earlier hmem, hitem⟩
  · rintro ⟨before, after, heq, hbefore, hitem⟩
    exact ⟨hitem, before, after, heq, fun earlier hmem => by simpa using hbefore earlier hmem⟩

/-- The failure of a list of computations is the failure of the first one that fails. -/
theorem mapM_eq_error_iff {f : α → Except ε β} {bad : α → Prop} {items : List α} {e : ε}
    (hbad : ∀ item, bad item ↔ ∃ e, f item = .error e) :
    items.mapM f = .error e ↔ ∃ item, IsFirst bad items item ∧ f item = .error e := by
  induction items with
  | nil => simp [pure, Except.pure, IsFirst]
  | cons item rest ih =>
    have hrest : (∃ b, f item = .ok b ∧ (rest.mapM f >>= fun bs => pure (b :: bs)) = .error e) ↔
        ¬ bad item ∧ rest.mapM f = .error e := by
      rw [hbad]
      cases f item with
      | error e' => simp
      | ok b =>
        simp only [bind_eq_error_iff, reduceCtorEq, exists_false, not_false_eq_true, true_and,
          Except.ok.injEq, exists_eq_left']
        exact or_iff_left fun ⟨_, _, h⟩ => nomatch h
    rw [List.mapM_cons, bind_eq_error_iff, hrest, ih]
    constructor
    · rintro (hitem | ⟨hitem, first, hfirst, hfails⟩)
      · exact ⟨item, isFirst_cons_iff.2 (.inl ⟨(hbad item).2 ⟨e, hitem⟩, rfl⟩), hitem⟩
      · exact ⟨first, isFirst_cons_iff.2 (.inr ⟨hitem, hfirst⟩), hfails⟩
    · rintro ⟨first, hfirst, hfails⟩
      obtain ⟨-, rfl⟩ | ⟨hitem, hfirst⟩ := isFirst_cons_iff.1 hfirst
      · exact .inl hfails
      · exact .inr ⟨hitem, first, hfirst, hfails⟩

theorem exists_of_mapM_eq_error {f : α → Except ε β} {items : List α} {e : ε}
    (h : items.mapM f = .error e) : ∃ item ∈ items, f item = .error e := by
  obtain ⟨item, hfirst, hitem⟩ := (mapM_eq_error_iff fun _ => Iff.rfl).1 h
  exact ⟨item, hfirst.mem, hitem⟩

theorem forM_eq_map_mapM (f : α → Except ε Unit) (items : List α) :
    items.forM f = (items.mapM f).map fun _ => () := by
  induction items with
  | nil => rfl
  | cons item rest ih =>
    rw [List.mapM_cons]
    change (f item >>= fun _ => rest.forM f) = _
    rw [ih]
    cases f item with
    | error e => rfl
    | ok b =>
      change (rest.mapM f).map _ = ((rest.mapM f).bind fun bs => Except.ok (b :: bs)).map _
      cases rest.mapM f <;> rfl

theorem forM_eq_error_iff {f : α → Except ε Unit} {bad : α → Prop} {items : List α} {e : ε}
    (hbad : ∀ item, bad item ↔ ∃ e, f item = .error e) :
    items.forM f = .error e ↔ ∃ item, IsFirst bad items item ∧ f item = .error e := by
  rw [forM_eq_map_mapM, map_eq_error_iff, mapM_eq_error_iff hbad]

theorem forM_eq_ok_iff {f : α → Except ε Unit} {items : List α} :
    items.forM f = .ok () ↔ ∀ item ∈ items, f item = .ok () := by
  induction items with
  | nil => exact iff_of_true rfl (List.forall_mem_nil _)
  | cons item rest ih =>
    rw [List.forall_mem_cons, ← ih]
    change (f item >>= fun _ => rest.forM f) = _ ↔ _
    rw [bind_eq_ok_iff]
    exact ⟨fun ⟨_, hitem, hrest⟩ => ⟨hitem, hrest⟩, fun ⟨hitem, hrest⟩ => ⟨(), hitem, hrest⟩⟩

theorem exists_of_mapM_eq_ok {f : α → Except ε β} {items : List α} {bs : List β}
    (h : items.mapM f = .ok bs) {item : α} (hmem : item ∈ items) : ∃ b, f item = .ok b := by
  induction items generalizing bs with
  | nil => exact nomatch hmem
  | cons first rest ih =>
    rw [List.mapM_cons] at h
    obtain ⟨b, hfirst, h⟩ := bind_eq_ok_iff.1 h
    obtain ⟨bs', hrest, -⟩ := bind_eq_ok_iff.1 h
    obtain rfl | hmem := List.mem_cons.1 hmem
    · exact ⟨b, hfirst⟩
    · exact ih hrest hmem

/-- The results of a list of computations are those of its items. -/
theorem mem_iff_of_mapM_eq_ok {f : α → Except ε β} {items : List α} {bs : List β}
    (h : items.mapM f = .ok bs) {b : β} : b ∈ bs ↔ ∃ item ∈ items, f item = .ok b := by
  induction items generalizing bs with
  | nil =>
    obtain rfl := Except.ok.inj h
    simp
  | cons first rest ih =>
    rw [List.mapM_cons] at h
    obtain ⟨b', hfirst, h⟩ := bind_eq_ok_iff.1 h
    obtain ⟨bs', hrest, h⟩ := bind_eq_ok_iff.1 h
    obtain rfl := Except.ok.inj h
    rw [List.mem_cons, ih hrest]
    simp [hfirst, eq_comm]

/-- What every step keeps holds at the end of a run. -/
theorem of_foldlM_eq_ok {p : β → Prop} {f : β → α → Except ε β} {items : List α} {b b' : β}
    (h : items.foldlM f b = .ok b') (start : p b)
    (keeps : ∀ item ∈ items, ∀ c c', p c → f c item = .ok c' → p c') : p b' := by
  induction items generalizing b with
  | nil =>
    obtain rfl := Except.ok.inj h
    exact start
  | cons item rest ih =>
    obtain ⟨hitem, hrest⟩ := List.forall_mem_cons.1 keeps
    rw [List.foldlM_cons] at h
    obtain ⟨between, hhead, htail⟩ := bind_eq_ok_iff.1 h
    exact ih htail (hitem b between start hhead) hrest

/-- A run comes to its end if every step does, where no step depends on those before it. -/
theorem exists_foldlM_iff {f : β → α → Except ε β} {good : α → Prop} {items : List α} {b : β}
    (h : ∀ item b, (∃ b', f b item = .ok b') ↔ good item) :
    (∃ b', items.foldlM f b = .ok b') ↔ ∀ item ∈ items, good item := by
  induction items generalizing b with
  | nil => exact iff_of_true ⟨b, rfl⟩ (List.forall_mem_nil _)
  | cons item rest ih =>
    rw [List.forall_mem_cons, List.foldlM_cons, ← h item b]
    simp only [bind_eq_ok_iff]
    constructor
    · rintro ⟨b', between, hhead, hrest⟩
      exact ⟨⟨between, hhead⟩, ih.1 ⟨b', hrest⟩⟩
    · rintro ⟨⟨between, hhead⟩, hrest⟩
      obtain ⟨b', hb'⟩ := (ih (b := between)).2 hrest
      exact ⟨b', between, hhead, hb'⟩

/-- Two computations that fail with the same failure or end with related results. -/
inductive EndAlike (r : α → β → Prop) : Except ε α → Except ε β → Prop
  | failed (e : ε) : EndAlike r (.error e) (.error e)
  | ended {a : α} {b : β} (h : r a b) : EndAlike r (.ok a) (.ok b)

theorem exists_ok_of_any_toOption {x : Except ε α} {p : α → Bool}
    (h : x.toOption.any p = true) : ∃ a, x = .ok a ∧ p a = true := by
  cases x with
  | error e => cases h
  | ok a => exact ⟨a, rfl, h⟩

theorem isOk_iff {x : Except ε α} : x.isOk = true ↔ ∃ a, x = .ok a := by
  cases x with
  | error e => simp [Except.isOk, Except.toBool]
  | ok a => simp [Except.isOk, Except.toBool]

end ServerManifests
