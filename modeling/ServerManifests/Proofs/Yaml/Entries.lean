import Mathlib.Data.List.Perm.Basic
import ServerManifests.Yaml.Value

/-!
Entries of a mapping as a function of keys. Keys agree if they have the same
signature, and a text agrees with itself only. While no two keys agree, the order
of the entries does not matter to a lookup.
-/
namespace ServerManifests.Yaml

namespace Value

theorem agrees_iff {a b : Value} : a.agrees b = true ↔ a.signature = b.signature := by
  unfold agrees
  exact beq_iff_eq

theorem agrees_self (a : Value) : a.agrees a = true := agrees_iff.2 rfl

theorem agrees_comm (a b : Value) : a.agrees b = b.agrees a := by
  unfold agrees
  exact Bool.beq_comm

theorem agrees_congr {a b : Value} (h : a.agrees b = true) (c : Value) :
    c.agrees a = c.agrees b := by
  unfold agrees
  rw [agrees_iff.1 h]

theorem textSignature_injective {s t : String} (h : textSignature s = textSignature t) :
    s = t := by
  unfold textSignature at h
  have hcodes : s.toList.map Char.toNat = t.toList.map Char.toNat := (List.cons.inj h).2
  have hchars : s.toList = t.toList :=
    List.map_injective_iff.2 (fun a b hab => Char.toNat_inj.1 hab) hcodes
  exact String.toList_inj.1 hchars

theorem agrees_text_iff {key : Value} {s : String} :
    key.agrees (.text s) = true ↔ key = .text s := by
  constructor
  · intro h
    have hsignature := agrees_iff.1 h
    cases key with
    | text t =>
      have htext : textSignature t = textSignature s := by
        simpa only [signature, List.cons.injEq, true_and] using hsignature
      exact congrArg Value.text (textSignature_injective htext)
    | _ => simp [signature] at hsignature
  · rintro rfl
    exact agrees_self _

end Value

namespace Entries

/-- No two keys agree. -/
def Distinct (es : Entries) : Prop := es.Pairwise fun a b => a.1.agrees b.1 = false

theorem find?_cons (e : Value × Value) (rest : Entries) (key : Value) :
    Entries.find? (e :: rest) key = if e.1.agrees key then some e.2 else rest.find? key := by
  unfold find?
  rw [List.find?_cons]
  by_cases h : e.1.agrees key
  · simp [h]
  · simp [h]

theorem find?_append (first second : Entries) (key : Value) :
    Entries.find? (first ++ second) key = (first.find? key).or (second.find? key) := by
  unfold find?
  rw [List.find?_append, Option.map_or]

theorem find?_congr {key key' : Value} (h : key.agrees key' = true) (es : Entries) :
    es.find? key = es.find? key' := by
  unfold find?
  simp only [Value.agrees_congr h]

theorem find?_eq_none_iff {es : Entries} {key : Value} :
    es.find? key = none ↔ ∀ e ∈ es, e.1.agrees key = false := by
  unfold find?
  rw [Option.map_eq_none_iff, List.find?_eq_none]
  simp only [Bool.not_eq_true]

theorem Distinct.find?_rest {e : Value × Value} {rest : Entries}
    (h : Distinct (e :: rest)) {key : Value} (hkey : e.1.agrees key = true) :
    rest.find? key = none := by
  rw [find?_eq_none_iff]
  intro e' he'
  rw [← Value.agrees_congr hkey, Value.agrees_comm]
  exact (List.pairwise_cons.1 h).1 e' he'

theorem mem_of_find?_eq_some {es : Entries} {key value : Value}
    (h : es.find? key = some value) : ∃ k, (k, value) ∈ es ∧ k.agrees key = true := by
  obtain ⟨⟨k, v⟩, hfind, rfl⟩ := Option.map_eq_some_iff.1 h
  exact ⟨k, List.mem_of_find?_eq_some hfind, by simpa using List.find?_some hfind⟩

theorem find?_eq_some_iff {es : Entries} (hdistinct : es.Distinct) {key value : Value} :
    es.find? key = some value ↔ ∃ k, (k, value) ∈ es ∧ k.agrees key = true := by
  constructor
  · exact mem_of_find?_eq_some
  · intro h
    obtain ⟨k, hmem, hk⟩ := h
    induction es with
    | nil => simp at hmem
    | cons e rest ih =>
      obtain ⟨hhead, hrest⟩ := List.pairwise_cons.1 hdistinct
      rw [find?_cons]
      rcases List.mem_cons.1 hmem with rfl | hmem
      · rw [if_pos hk]
      · have he : e.1.agrees key = false := by
          rw [← Value.agrees_congr hk]
          exact hhead _ hmem
        rw [if_neg (by simp [he])]
        exact ih hrest hmem

theorem Distinct.perm {es es' : Entries} (h : es.Distinct) (hperm : es.Perm es') :
    es'.Distinct := by
  refine (hperm.pairwise_iff ?_).1 h
  intro a b hab
  rw [Value.agrees_comm]
  exact hab

/-- Distinct keys are found wherever their entries stand. -/
theorem find?_perm {es es' : Entries} (h : es.Distinct) (hperm : es.Perm es') (key : Value) :
    es.find? key = es'.find? key := by
  apply Option.ext
  intro value
  rw [find?_eq_some_iff h, find?_eq_some_iff (h.perm hperm)]
  simp only [hperm.mem_iff]

theorem find?_replace (es : Entries) (key value key' : Value) :
    (es.replace key value).find? key' =
      (es.find? key').map fun present => if key.agrees key' then value else present := by
  induction es with
  | nil => rfl
  | cons e rest ih =>
    change Entries.find? ((if e.1.agrees key then (e.1, value) else e) ::
      Entries.replace rest key value) key' = _
    rw [find?_cons, find?_cons, ih]
    by_cases hkey' : e.1.agrees key'
    · have hsame : key.agrees key' = e.1.agrees key := by
        rw [Value.agrees_comm e.1 key, Value.agrees_congr hkey']
      by_cases hkey : e.1.agrees key
      · simp [hkey, hkey', hsame]
      · simp [hkey, hkey', hsame]
    · by_cases hkey : e.1.agrees key
      · simp [hkey, hkey']
      · simp [hkey, hkey']

/-- Giving an entry the value that it has changes nothing. -/
theorem Distinct.replace_self {es : Entries} (h : es.Distinct) {key present : Value}
    (hfind : es.find? key = some present) : es.replace key present = es := by
  have hsame : ∀ e ∈ es, (if e.1.agrees key then (e.1, present) else e) = id e := by
    intro e he
    split
    · next hkey =>
      have hvalue := (find?_eq_some_iff h).2 ⟨e.1, he, hkey⟩
      rw [hfind] at hvalue
      obtain rfl := Option.some.inj hvalue
      rfl
    · rfl
  calc
    es.replace key present = es.map id := List.map_congr_left hsame
    _ = es := List.map_id es

theorem mem_replace {es : Entries} {key value : Value} {e : Value × Value}
    (h : e ∈ es.replace key value) : ∃ e' ∈ es, e.1 = e'.1 ∧ (e.2 = e'.2 ∨ e.2 = value) := by
  obtain ⟨e', he', rfl⟩ := List.mem_map.1 h
  refine ⟨e', he', ?_⟩
  split
  · exact ⟨rfl, .inr rfl⟩
  · exact ⟨rfl, .inl rfl⟩

theorem mem_remove {es : Entries} {key : Value} {e : Value × Value} (h : e ∈ es.remove key) :
    e ∈ es := by
  induction es with
  | nil => exact h
  | cons first rest ih =>
    rw [remove] at h
    split at h
    · cases hlast : rest.getLast? with
      | none =>
        rw [hlast] at h
        exact absurd h List.not_mem_nil
      | some last =>
        rw [hlast] at h
        rcases List.mem_cons.1 h with rfl | h
        · exact List.mem_cons_of_mem _ (List.mem_of_getLast? hlast)
        · exact List.mem_cons_of_mem _ (List.dropLast_subset _ h)
    · rcases List.mem_cons.1 h with rfl | h
      · exact List.mem_cons_self
      · exact List.mem_cons_of_mem _ (ih h)

theorem keys_replace (es : Entries) (key value : Value) :
    (es.replace key value).map Prod.fst = es.map Prod.fst := by
  unfold replace
  rw [List.map_map]
  apply List.map_congr_left
  intro e _
  simp only [Function.comp]
  split <;> rfl

theorem distinct_iff_keys {es : Entries} :
    es.Distinct ↔ (es.map Prod.fst).Pairwise fun a b => a.agrees b = false := by
  rw [List.pairwise_map]
  rfl

theorem Distinct.replace {es : Entries} (h : es.Distinct) (key value : Value) :
    (es.replace key value).Distinct := by
  rw [distinct_iff_keys, keys_replace]
  exact distinct_iff_keys.1 h

theorem Distinct.append_new {es : Entries} (h : es.Distinct) {key value : Value}
    (hnew : es.find? key = none) : Entries.Distinct (es ++ [(key, value)]) := by
  refine List.pairwise_append.2 ⟨h, List.pairwise_singleton .., ?_⟩
  intro a ha b hb
  obtain rfl := List.mem_singleton.1 hb
  exact find?_eq_none_iff.1 hnew a ha

theorem last_dropLast_perm {es : Entries} {last : Value × Value}
    (h : es.getLast? = some last) : (last :: es.dropLast).Perm es := by
  have hsplit : es = es.dropLast ++ [last] := (List.dropLast_append_getLast? last h).symm
  calc
    last :: es.dropLast |>.Perm (es.dropLast ++ [last]) := (List.perm_append_singleton ..).symm
    _ = es := hsplit.symm

/-- Removal only drops the entry of the key, though it moves the last one. -/
theorem remove_perm {es : Entries} (h : es.Distinct) (key : Value) :
    (es.remove key).Perm (es.filter fun e => !e.1.agrees key) := by
  induction es with
  | nil => exact .nil
  | cons e rest ih =>
    have hrest : Entries.Distinct rest := (List.pairwise_cons.1 h).2
    rw [remove]
    by_cases hkey : e.1.agrees key
    · have hothers : rest.filter (fun e => !e.1.agrees key) = rest := by
        apply List.filter_eq_self.2
        intro e' he'
        rw [find?_eq_none_iff.1 (h.find?_rest hkey) e' he']
        rfl
      rw [if_pos hkey, List.filter_cons_of_neg (by simp [hkey]), hothers]
      cases hlast : rest.getLast? with
      | none =>
        rw [List.getLast?_eq_none_iff.1 hlast]
      | some last => exact last_dropLast_perm hlast
    · rw [if_neg hkey, List.filter_cons_of_pos (by simp [hkey])]
      exact (ih hrest).cons e

/-- What is removed is one entry of the key, the one that a lookup finds. -/
theorem perm_of_find?_eq_some {es : Entries} {key value : Value}
    (h : es.find? key = some value) :
    ∃ k, k.agrees key = true ∧ es.Perm (es.remove key ++ [(k, value)]) := by
  induction es with
  | nil => exact nomatch h
  | cons e rest ih =>
    rw [find?_cons] at h
    rw [remove]
    by_cases hkey : e.1.agrees key
    · rw [if_pos hkey] at h ⊢
      obtain rfl := Option.some.inj h
      refine ⟨e.1, hkey, ?_⟩
      cases hlast : rest.getLast? with
      | none =>
        rw [List.getLast?_eq_none_iff.1 hlast]
        exact .refl _
      | some last =>
        calc
          e :: rest |>.Perm (rest ++ [e]) := (List.perm_append_singleton ..).symm
          _ |>.Perm ((last :: rest.dropLast) ++ [e]) :=
            (last_dropLast_perm hlast).symm.append_right _
    · rw [if_neg hkey] at h ⊢
      obtain ⟨k, hk, hperm⟩ := ih h
      exact ⟨k, hk, hperm.cons e⟩

/-- Where a key stands once, a replacement is a removal and a new entry. -/
theorem replace_perm {es : Entries} {key k value value' : Value}
    (hperm : es.Perm (es.remove key ++ [(k, value)])) (hk : k.agrees key = true)
    (honce : ∀ e ∈ es.remove key, e.1.agrees key = false) :
    (es.replace key value').Perm (es.remove key ++ [(k, value')]) := by
  have hothers : (es.remove key).map (fun e => if e.1.agrees key then (e.1, value') else e) =
      es.remove key := by
    calc
      _ = (es.remove key).map id := List.map_congr_left fun e he => if_neg (by simp [honce e he])
      _ = es.remove key := List.map_id _
  unfold replace
  refine (hperm.map _).trans ?_
  rw [List.map_append, hothers, List.map_singleton, if_pos hk]

theorem Distinct.remove {es : Entries} (h : es.Distinct) (key : Value) :
    (es.remove key).Distinct :=
  Distinct.perm (List.Pairwise.filter _ h) (remove_perm h key).symm

theorem find?_remove {es : Entries} (h : es.Distinct) (key key' : Value) :
    (es.remove key).find? key' = if key.agrees key' then none else es.find? key' := by
  rw [find?_perm (h.remove key) (remove_perm h key)]
  by_cases hkey : key.agrees key'
  · rw [if_pos hkey, find?_eq_none_iff]
    intro e he
    have hne := (List.mem_filter.1 he).2
    rw [← Value.agrees_congr hkey]
    simpa using hne
  · rw [if_neg hkey]
    unfold find?
    rw [List.find?_filter]
    congr 2
    funext e
    by_cases he : e.1.agrees key'
    · have hne : e.1.agrees key = false := by
        rw [Value.agrees_comm, Value.agrees_congr he]
        simpa using hkey
      simp [he, hne]
    · simp [he]

end Entries

end ServerManifests.Yaml
