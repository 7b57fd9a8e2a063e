import Mathlib.Data.List.TakeWhile

/-!
Texts cut at the lines that are the marker between documents. What ends a line is
left open: YAML counts all its breaks, other readers the line feed alone. A line of
the second kind is made of lines of the first.
-/
namespace ServerManifests.Yaml

/-- The text of the line between two documents. -/
def marker : List Char := ['-', '-', '-']

variable {ends fine : Char → Bool}

/-- The lines of a text, each with the character that ends it. -/
def linesOf (ends : Char → Bool) : List Char → List (List Char)
  | [] => []
  | c :: rest =>
    if ends c then [c] :: linesOf ends rest
    else match linesOf ends rest with
      | [] => [[c]]
      | line :: lines => (c :: line) :: lines

/-- Whether a line is the marker, with or without the character that ends it. -/
def isMarker (ends : Char → Bool) (line : List Char) : Bool :=
  line.takeWhile (!ends ·) = marker

/-- The lines between the markers, as lists of lines. -/
def cutLines (ends : Char → Bool) (text : List Char) : List (List (List Char)) :=
  (linesOf ends text).splitOnP (isMarker ends)

/-- The texts between the lines that are the marker. -/
def cutAtMarkers (ends : Char → Bool) (text : String) : List String :=
  (cutLines ends text.toList).map fun lines => String.ofList lines.flatten

theorem eq_of_mem_marker {c : Char} (h : c ∈ marker) : c = '-' :=
  List.eq_of_mem_replicate (n := 3) h

theorem not_ends_of_mem_marker (hdash : ends '-' = false) : ∀ c ∈ marker, ends c = false :=
  fun _ hc => eq_of_mem_marker hc ▸ hdash

theorem linesOf_cons_of_ends {c : Char} (h : ends c = true) (rest : List Char) :
    linesOf ends (c :: rest) = [c] :: linesOf ends rest := by
  rw [linesOf, if_pos h]

theorem linesOf_cons_of_not_ends {c : Char} (h : ends c = false) {rest line : List Char}
    {lines : List (List Char)} (hrest : linesOf ends rest = line :: lines) :
    linesOf ends (c :: rest) = (c :: line) :: lines := by
  rw [linesOf, if_neg (Bool.eq_false_iff.1 h), hrest]

theorem linesOf_ne_nil (ends : Char → Bool) {text : List Char} (h : text ≠ []) :
    linesOf ends text ≠ [] := by
  cases text with
  | nil => exact absurd rfl h
  | cons c rest =>
    rw [linesOf]
    split
    · exact List.cons_ne_nil _ _
    · split <;> exact List.cons_ne_nil _ _

theorem ne_nil_of_mem_linesOf {text line : List Char} (h : line ∈ linesOf ends text) :
    line ≠ [] := by
  induction text generalizing line with
  | nil => cases h
  | cons c rest ih =>
    rw [linesOf] at h
    split at h
    · rcases List.mem_cons.1 h with rfl | h
      · exact List.cons_ne_nil c []
      · exact ih h
    · split at h
      · obtain rfl := List.mem_singleton.1 h
        exact List.cons_ne_nil c []
      · next first lines hlines =>
        rcases List.mem_cons.1 h with rfl | h
        · exact List.cons_ne_nil c first
        · exact ih (hlines ▸ List.mem_cons_of_mem first h)

theorem linesOf_singleton (c : Char) : linesOf ends [c] = [[c]] := by
  rw [linesOf]
  split <;> rfl

/-- A text whose last character ends a line, or that has none. -/
def IsWhole (ends : Char → Bool) (text : List Char) : Prop :=
  ∀ c, text.getLast? = some c → ends c = true

theorem linesOf_append {first : List Char} (h : IsWhole ends first) (second : List Char) :
    linesOf ends (first ++ second) = linesOf ends first ++ linesOf ends second := by
  induction first with
  | nil => rfl
  | cons c rest ih =>
    cases rest with
    | nil =>
      have hc := h c rfl
      rw [List.singleton_append, linesOf_cons_of_ends hc, linesOf_cons_of_ends hc]
      rfl
    | cons next rest =>
      have hrest : IsWhole ends (next :: rest) := fun last hlast => h last hlast
      have hsplit := ih hrest
      rw [List.cons_append]
      cases hc : ends c with
      | true => rw [linesOf_cons_of_ends hc, linesOf_cons_of_ends hc, hsplit, List.cons_append]
      | false =>
        obtain ⟨line, lines, hlines⟩ :=
          List.exists_cons_of_ne_nil (linesOf_ne_nil ends (List.cons_ne_nil next rest))
        rw [hlines] at hsplit
        rw [linesOf_cons_of_not_ends hc hlines, linesOf_cons_of_not_ends hc hsplit]
        rfl

theorem flatten_linesOf (text : List Char) : (linesOf ends text).flatten = text := by
  induction text with
  | nil => rfl
  | cons c rest ih =>
    cases hc : ends c with
    | true => rw [linesOf_cons_of_ends hc, List.flatten_cons, ih, List.singleton_append]
    | false =>
      cases hrest : linesOf ends rest with
      | nil =>
        have hnil : rest = [] := by
          by_contra hne
          exact linesOf_ne_nil ends hne hrest
        rw [hnil, linesOf_singleton]
        rfl
      | cons line lines =>
        rw [linesOf_cons_of_not_ends hc hrest, List.flatten_cons, List.cons_append,
          ← List.flatten_cons, ← hrest, ih]

/-- A line is the one line of its text. -/
theorem linesOf_concat {text : List Char} (htext : ∀ c ∈ text, ends c = false) (last : Char) :
    linesOf ends (text ++ [last]) = [text ++ [last]] := by
  induction text with
  | nil => exact linesOf_singleton last
  | cons c rest ih =>
    obtain ⟨hc, hrest⟩ := List.forall_mem_cons.1 htext
    exact linesOf_cons_of_not_ends hc (ih hrest)

/-- Every line but the last is whole. -/
theorem isWhole_of_mem_dropLast {text line : List Char}
    (h : line ∈ (linesOf ends text).dropLast) : IsWhole ends line := by
  induction text generalizing line with
  | nil => cases h
  | cons c rest ih =>
    by_cases hnil : rest = []
    · rw [hnil, linesOf_singleton] at h
      cases h
    · have hrest := linesOf_ne_nil ends hnil
      cases hc : ends c with
      | true =>
        rw [linesOf_cons_of_ends hc, List.dropLast_cons_of_ne_nil hrest] at h
        rcases List.mem_cons.1 h with rfl | h
        · intro last hlast
          obtain rfl := Option.some.inj hlast
          exact hc
        · exact ih h
      | false =>
        obtain ⟨first, lines, hlines⟩ := List.exists_cons_of_ne_nil hrest
        have hfirst : first ≠ [] := ne_nil_of_mem_linesOf (hlines ▸ List.mem_cons_self)
        rw [linesOf_cons_of_not_ends hc hlines] at h
        rw [hlines] at ih
        cases lines with
        | nil => cases h
        | cons next lines =>
          rw [List.dropLast_cons_of_ne_nil (List.cons_ne_nil next lines)] at h ih
          rcases List.mem_cons.1 h with rfl | h
          · intro last hlast
            rw [List.getLast?_cons_of_ne_nil hfirst] at hlast
            exact ih List.mem_cons_self last hlast
          · exact ih (List.mem_cons_of_mem _ h)

/-- Lines by fewer characters are made of lines by more. -/
theorem linesOf_eq_flatMap (hfine : ∀ c, ends c = true → fine c = true) (text : List Char) :
    linesOf fine text = (linesOf ends text).flatMap (linesOf fine) := by
  induction text with
  | nil => rfl
  | cons c rest ih =>
    cases hc : ends c with
    | true =>
      rw [linesOf_cons_of_ends hc, linesOf_cons_of_ends (hfine c hc), List.flatMap_cons, ← ih,
        linesOf_singleton, List.singleton_append]
    | false =>
      by_cases hnil : rest = []
      · rw [hnil, linesOf_singleton, linesOf_singleton, List.flatMap_singleton, linesOf_singleton]
      · obtain ⟨first, lines, hlines⟩ :=
          List.exists_cons_of_ne_nil (linesOf_ne_nil ends hnil)
        have hfirst : first ≠ [] := ne_nil_of_mem_linesOf (hlines ▸ List.mem_cons_self)
        rw [hlines, List.flatMap_cons] at ih
        rw [linesOf_cons_of_not_ends hc hlines, List.flatMap_cons]
        cases hcfine : fine c with
        | true =>
          rw [linesOf_cons_of_ends hcfine, linesOf_cons_of_ends hcfine, ih, List.cons_append]
        | false =>
          obtain ⟨line, more, hmore⟩ :=
            List.exists_cons_of_ne_nil (linesOf_ne_nil fine hfirst)
          rw [hmore, List.cons_append] at ih
          rw [linesOf_cons_of_not_ends hcfine ih, linesOf_cons_of_not_ends hcfine hmore,
            List.cons_append]

theorem takeWhile_line {text : List Char} (htext : ∀ c ∈ text, ends c = false) {c : Char}
    (hc : ends c = true) : (text ++ [c]).takeWhile (!ends ·) = text := by
  rw [List.takeWhile_append_of_pos fun c hmem => by simp [htext c hmem],
    List.takeWhile_cons_of_neg (by simp [hc]), List.append_nil]

/-- A marker among the lines by fewer characters is one among the lines by more. -/
theorem exists_isMarker_of_fine (hfine : ∀ c, ends c = true → fine c = true)
    (hmarker : ∀ c ∈ marker, fine c = false) {text line : List Char}
    (hline : line ∈ linesOf ends text) (h : isMarker ends line = true) :
    ∃ first ∈ linesOf fine text, isMarker fine first = true := by
  have htake : line.takeWhile (!ends ·) = marker := of_decide_eq_true h
  have hsplit := List.takeWhile_append_dropWhile (p := (!ends ·)) (l := line)
  rw [htake] at hsplit
  obtain ⟨first, hfirst, hisMarker⟩ :
      ∃ first ∈ linesOf fine line, isMarker fine first = true := by
    have hafter := List.head?_dropWhile_not (!ends ·) line
    cases hrest : line.dropWhile (!ends ·) with
    | nil =>
      rw [hrest, List.append_nil] at hsplit
      have hdash : fine '-' = false := hmarker '-' List.mem_cons_self
      refine ⟨marker, ?_, by simp [isMarker, marker, hdash]⟩
      have hone : linesOf fine (['-', '-'] ++ ['-']) = [marker] :=
        linesOf_concat (fun c hc => hmarker c (List.mem_cons_of_mem _ hc)) '-'
      rw [← hsplit]
      exact hone ▸ List.mem_cons_self
    | cons c rest =>
      rw [hrest] at hafter
      have hc : fine c = true := hfine c (by simpa using hafter)
      rw [hrest, List.append_cons] at hsplit
      refine ⟨marker ++ [c], ?_, decide_eq_true (takeWhile_line hmarker hc)⟩
      rw [← hsplit, linesOf_append, linesOf_concat hmarker]
      · exact List.mem_cons_self
      · intro last hlast
        rw [List.getLast?_concat] at hlast
        exact Option.some.inj hlast ▸ hc
  rw [linesOf_eq_flatMap hfine]
  exact ⟨first, List.mem_flatMap.2 ⟨line, hline, hfirst⟩, hisMarker⟩

/-- Groups of lines with a marker before each are found by cutting at the markers. -/
theorem splitOnP_flatMap_cons {α : Type} {p : α → Bool} {mark : α} (hmark : p mark = true)
    {groups : List (List α)} (h : ∀ group ∈ groups, ∀ line ∈ group, p line = false) :
    (groups.flatMap (mark :: ·)).splitOnP p = [] :: groups := by
  induction groups with
  | nil => rfl
  | cons group rest ih =>
    obtain ⟨hgroup, hrest⟩ := List.forall_mem_cons.1 h
    have hafter := ih hrest
    rw [List.flatMap_cons, List.cons_append, List.splitOnP_cons_eq_if_modifyHead, if_pos hmark]
    congr 1
    cases rest with
    | nil =>
      rw [List.flatMap_nil, List.append_nil]
      exact List.splitOnP_eq_singleton hgroup
    | cons next rest =>
      rw [List.flatMap_cons, List.cons_append, List.splitOnP_cons_eq_if_modifyHead,
        if_pos hmark] at hafter
      rw [List.flatMap_cons, List.cons_append,
        List.splitOnP_append_cons_of_forall_mem hgroup mark hmark]
      exact congrArg (group :: ·) (List.cons.inj hafter).2

/-- What all lines but the last have, all lines before the last group have. -/
theorem forall_mem_dropLast_splitOnP {α : Type} {p : α → Bool} {q : α → Prop} {lines : List α}
    (h : ∀ line ∈ lines.dropLast, q line) :
    ∀ group ∈ (lines.splitOnP p).dropLast, ∀ line ∈ group, q line := by
  induction lines with
  | nil => exact List.forall_mem_nil _
  | cons first rest ih =>
    rw [List.splitOnP_cons_eq_if_modifyHead]
    by_cases hnil : rest = []
    · subst hnil
      split
      · exact List.forall_mem_singleton.2 (List.forall_mem_nil _)
      · exact List.forall_mem_nil _
    · rw [List.dropLast_cons_of_ne_nil hnil] at h
      obtain ⟨hfirst, hrest⟩ := List.forall_mem_cons.1 h
      have hgroups := ih hrest
      split
      · rw [List.dropLast_cons_of_ne_nil (List.splitOnP_ne_nil p rest)]
        exact List.forall_mem_cons.2 ⟨List.forall_mem_nil _, hgroups⟩
      · obtain ⟨group, groups, hsplit⟩ := List.exists_cons_of_ne_nil (List.splitOnP_ne_nil p rest)
        rw [hsplit] at hgroups ⊢
        cases groups with
        | nil => exact List.forall_mem_nil _
        | cons next groups =>
          obtain ⟨hgroup, hmore⟩ := List.forall_mem_cons.1 hgroups
          exact List.forall_mem_cons.2 ⟨List.forall_mem_cons.2 ⟨hfirst, hgroup⟩, hmore⟩

theorem isWhole_flatten {lines : List (List Char)} (h : ∀ line ∈ lines, IsWhole ends line) :
    IsWhole ends lines.flatten := by
  intro c hc
  rw [List.getLast?_flatten] at hc
  obtain ⟨line, hline, hlast⟩ := List.exists_of_findSome?_eq_some hc
  exact h line (List.mem_reverse.1 hline) c hlast

/-- What stands before a marker is whole. -/
theorem isWhole_of_mem_dropLast_cutAtMarkers {text piece : String}
    (h : piece ∈ (cutAtMarkers ends text).dropLast) : IsWhole ends piece.toList := by
  unfold cutAtMarkers at h
  rw [← List.map_dropLast] at h
  obtain ⟨lines, hlines, rfl⟩ := List.mem_map.1 h
  rw [String.toList_ofList]
  refine isWhole_flatten (forall_mem_dropLast_splitOnP ?_ lines hlines)
  exact fun line hline => isWhole_of_mem_dropLast hline

end ServerManifests.Yaml
