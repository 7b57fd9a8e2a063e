import Mathlib.Data.List.Induction
import ServerManifests.Proofs.Decimal.Notation
import ServerManifests.Proofs.Yaml.Lines
import ServerManifests.Yaml.Printer

/-!
The rows of a printed tree. Every row is one line, and none is the marker between
documents: what could be one is quoted, follows an indicator or a key, or stands
further in. The last row ends with a line feed unless the tree ends with a text
that is written as it is and ends with another break.
-/
namespace ServerManifests.Yaml

open Decimal

namespace Row

/-- A row without breaks but for the one at its end. -/
structure IsLine (row : Row) : Prop where
  text : ∀ c ∈ row.text, isBreak c = false
  ending : isBreak row.ending = true

theorem isLine_of_text {text : List Char} (h : ∀ c ∈ text, isBreak c = false) :
    IsLine ⟨text, '\n'⟩ := ⟨h, rfl⟩

@[simp]
theorem ending_shift (n : Nat) (row : Row) : (row.shift n).ending = row.ending := by
  unfold shift
  split <;> rfl

theorem not_isBreak_of_mem_spaces {n : Nat} {c : Char} (h : c ∈ spaces n) :
    isBreak c = false := by
  obtain ⟨-, rfl⟩ := List.mem_replicate.1 h
  rfl

theorem IsLine.shift {row : Row} (h : row.IsLine) (n : Nat) : (row.shift n).IsLine := by
  unfold Row.shift
  split
  · exact h
  · refine ⟨fun c hc => ?_, h.ending⟩
    rcases List.mem_append.1 hc with hc | hc
    · exact not_isBreak_of_mem_spaces hc
    · exact h.text c hc

/-- What stands further in is no marker. -/
theorem shift_ne_marker (row : Row) : (row.shift 2).text ≠ marker := by
  unfold shift
  split
  · next hempty =>
    rw [List.isEmpty_iff.1 hempty]
    decide
  · intro h
    have hspace : ' ' = '-' := (List.cons.inj h).1
    exact absurd hspace (by decide)

theorem split_cons_of_isBreak {c : Char} (h : isBreak c = true) (row rest : List Char) :
    split row (c :: rest) = (⟨row.reverse, c⟩ :: (split [] rest).1, (split [] rest).2) := by
  rw [split, if_pos h]

theorem split_cons_of_not_isBreak {c : Char} (h : isBreak c = false) (row rest : List Char) :
    split row (c :: rest) = split (c :: row) rest := by
  rw [split, if_neg (Bool.eq_false_iff.1 h)]

/-- The rows of a text are lines, and no break follows the last of them. -/
theorem isLine_split {row : List Char} (cs : List Char) (hrow : ∀ c ∈ row, isBreak c = false) :
    (∀ line ∈ (split row cs).1, line.IsLine) ∧ ∀ c ∈ (split row cs).2, isBreak c = false := by
  induction cs generalizing row with
  | nil => exact ⟨List.forall_mem_nil _, fun c hc => hrow c (List.mem_reverse.1 hc)⟩
  | cons c rest ih =>
    cases hbreak : isBreak c with
    | true =>
      obtain ⟨hlines, hlast⟩ := ih (List.forall_mem_nil _)
      rw [split_cons_of_isBreak hbreak]
      refine ⟨List.forall_mem_cons.2 ⟨⟨fun c hc => ?_, hbreak⟩, hlines⟩, hlast⟩
      exact hrow c (List.mem_reverse.1 hc)
    | false =>
      rw [split_cons_of_not_isBreak hbreak]
      exact ih (List.forall_mem_cons.2 ⟨hbreak, hrow⟩)

/-- Nothing is lost when a text is split into rows. -/
theorem flatMap_chars_split (row cs : List Char) :
    (split row cs).1.flatMap chars ++ (split row cs).2 = row.reverse ++ cs := by
  induction cs generalizing row with
  | nil => exact (List.append_nil _).symm
  | cons c rest ih =>
    cases hbreak : isBreak c with
    | true =>
      rw [split_cons_of_isBreak hbreak, List.flatMap_cons, List.append_assoc, ih]
      simp [chars]
    | false =>
      rw [split_cons_of_not_isBreak hbreak, ih]
      simp

theorem getLast?_flatMap_chars (rows : List Row) :
    (rows.flatMap chars).getLast? = rows.getLast?.map (·.ending) := by
  induction rows using List.reverseRecOn with
  | nil => rfl
  | append_singleton rows row ih => simp [chars]

/-- A text that ends with a break ends as the last of its rows does. -/
theorem getLast?_split_of_eq_nil {cs : List Char} (h : (split [] cs).2 = []) :
    (split [] cs).1.getLast?.map (·.ending) = cs.getLast? := by
  have hwhole := flatMap_chars_split [] cs
  rw [h, List.append_nil] at hwhole
  rw [← getLast?_flatMap_chars, hwhole]
  rfl

theorem getLast?_split_of_ne_nil {cs : List Char} (h : (split [] cs).2 ≠ []) :
    ∃ c, cs.getLast? = some c ∧ isBreak c = false := by
  have hwhole : (split [] cs).1.flatMap chars ++ (split [] cs).2 = cs := flatMap_chars_split [] cs
  obtain ⟨c, hc⟩ := Option.ne_none_iff_exists'.1 (mt List.getLast?_eq_none_iff.1 h)
  refine ⟨c, ?_, ?_⟩
  · rw [← hwhole, List.getLast?_append, hc, Option.some_or]
  · exact (isLine_split cs (List.forall_mem_nil _)).2 c (List.mem_of_getLast? hc)

end Row

theorem isBreak_iff {c : Char} : isBreak c = true ↔
    c = '\n' ∨ c = '\r' ∨ c = '\u0085' ∨ c = '\u2028' ∨ c = '\u2029' := by
  simp [isBreak, or_assoc]

theorem any_isBreak_eq_false_iff {text : List Char} :
    text.any isBreak = false ↔ ∀ c ∈ text, isBreak c = false := by
  simp [List.any_eq_false]

theorem not_isBreak_of_isDigit {c : Char} (h : c.isDigit = true) : isBreak c = false := by
  rw [← Bool.not_eq_true, isBreak_iff]
  rintro (rfl | rfl | rfl | rfl | rfl) <;> cases h

namespace Printer

theorem not_isBreak_of_mem_escape {c x : Char} (h : x ∈ escape c) : isBreak x = false := by
  have hletters : ∀ e ∈ namedEscapes, isBreak e.2 = false := by decide
  have hnamed : ∀ c, isBreak c = true → namedEscapes.lookup c ≠ none := by
    intro c hc
    rw [isBreak_iff] at hc
    rcases hc with rfl | rfl | rfl | rfl | rfl <;> decide
  have hdigits : ∀ n < 16, isBreak (upperHexDigit n) = false := by decide
  have hhex : ∀ width n, ∀ x ∈ upperHex width n, isBreak x = false := by
    intro width n x hx
    obtain ⟨i, -, rfl⟩ := List.mem_map.1 (List.mem_reverse.1 hx)
    exact hdigits _ (Nat.mod_lt _ (by decide))
  unfold escape at h
  split at h
  · next letter hlookup =>
    obtain ⟨before, after, hsplit, -⟩ := List.lookup_eq_some_iff.1 hlookup
    have hmem : (c, letter) ∈ namedEscapes := by
      rw [hsplit]
      simp
    rcases List.mem_cons.1 h with rfl | h
    · rfl
    · obtain rfl := List.mem_singleton.1 h
      exact hletters _ hmem
  · next hlookup =>
    split at h
    · obtain rfl := List.mem_singleton.1 h
      exact Bool.eq_false_iff.2 fun hbreak => hnamed _ hbreak hlookup
    · split at h <;>
      · rw [List.mem_cons, List.mem_cons] at h
        rcases h with rfl | rfl | h
        · rfl
        · rfl
        · exact hhex _ _ _ h

/-- The text of a scalar on one line that may stand at the margin. -/
structure IsScalarLine (text : List Char) : Prop where
  oneLine : ∀ c ∈ text, isBreak c = false
  ne_marker : text ≠ marker

theorem isScalarLine_of_number {text : List Char}
    (h : ∀ c ∈ text, c ∈ ['-', '+', '.', 'e'] ∨ c.isDigit = true) (hsome : ∃ c ∈ text, c ≠ '-') :
    IsScalarLine text where
  oneLine c hc := by
    rcases h c hc with hsign | hdigit
    · have hfree : ['-', '+', '.', 'e'].any isBreak = false := by decide
      exact any_isBreak_eq_false_iff.1 hfree c hsign
    · exact not_isBreak_of_isDigit hdigit
  ne_marker := by
    rintro rfl
    obtain ⟨c, hc, hne⟩ := hsome
    exact hne (eq_of_mem_marker hc)

theorem isScalarLine_int (n : Int) : IsScalarLine (toString n).toList := by
  have hdigits (m : Nat) : (∀ c ∈ m.repr.toList, c ∈ ['-', '+', '.', 'e'] ∨ c.isDigit = true) ∧
      ∃ c ∈ m.repr.toList, c ≠ '-' := by
    rw [Nat.toList_repr]
    have hall : ∀ c ∈ Nat.toDigits 10 m, c.isDigit = true := fun c hc =>
      Notation64.isDigit_of_mem_digitChars hc
    obtain ⟨c, rest, hcons⟩ := List.exists_cons_of_ne_nil (Nat.toDigits_ne_nil (n := m) (b := 10))
    refine ⟨fun c hc => .inr (hall c hc), c, hcons ▸ List.mem_cons_self, ?_⟩
    rintro rfl
    cases hall '-' (hcons ▸ List.mem_cons_self)
  cases n with
  | ofNat m => exact isScalarLine_of_number (hdigits m).1 (hdigits m).2
  | negSucc m =>
    obtain ⟨hall, c, hc, hne⟩ := hdigits m.succ
    have htext : (toString (Int.negSucc m)).toList = '-' :: m.succ.repr.toList :=
      String.toList_append
    rw [htext]
    refine isScalarLine_of_number (List.forall_mem_cons.2 ⟨.inl (by decide), hall⟩) ?_
    exact ⟨c, List.mem_cons_of_mem _ hc, hne⟩

theorem isScalarLine_float (x : Finite64) :
    IsScalarLine (Value.numberNotation.finiteText x) := by
  obtain ⟨hall, hsome⟩ := Value.numberNotation.isDigit_of_mem_finiteText x
  exact isScalarLine_of_number hall hsome

/-- The rows of a scalar are lines, and the first of them is not the marker. -/
structure AreScalarRows (rows : ScalarRows) : Prop where
  first : rows.1.IsLine
  more : ∀ row ∈ rows.2, row.IsLine
  ne_marker : rows.1.text ≠ marker

theorem areScalarRows_ofLine {text : List Char} (h : IsScalarLine text) :
    AreScalarRows (ofLine text) where
  first := Row.isLine_of_text h.oneLine
  more := List.forall_mem_nil _
  ne_marker := h.ne_marker

/-- A text that begins with another character is not the marker. -/
theorem cons_ne_marker {c : Char} (hc : c ≠ '-') (rest : List Char) : c :: rest ≠ marker := by
  intro h
  exact hc (List.cons.inj h).1

theorem areScalarRows_doubleQuoted (cs : List Char) : AreScalarRows (ofLine (doubleQuoted cs)) := by
  refine areScalarRows_ofLine ⟨fun c hc => ?_, cons_ne_marker (by decide) _⟩
  rcases List.mem_append.1 hc with hc | hc
  · rcases List.mem_cons.1 hc with rfl | hc
    · rfl
    · obtain ⟨c', -, hc⟩ := List.mem_flatMap.1 hc
      exact not_isBreak_of_mem_escape hc
  · obtain rfl := List.mem_singleton.1 hc
    rfl

theorem areScalarRows_singleRows (cs : List Char) : AreScalarRows (singleRows cs) := by
  obtain ⟨quoted, hquoted⟩ : ∃ quoted, singleQuoted cs = '\'' :: quoted := ⟨_, rfl⟩
  have hwhole := Row.flatMap_chars_split [] (singleQuoted cs)
  obtain ⟨hlines, hlast⟩ :=
    Row.isLine_split (singleQuoted cs) (List.forall_mem_nil (isBreak · = false))
  have hquote : ('-' : Char) ≠ '\'' := by decide
  unfold singleRows
  generalize Row.split [] (singleQuoted cs) = parts at hwhole hlines hlast ⊢
  obtain ⟨rows, last⟩ := parts
  rw [hquoted] at hwhole
  cases rows with
  | nil =>
    refine areScalarRows_ofLine ⟨hlast, ?_⟩
    rintro rfl
    exact hquote (List.cons.inj hwhole).1
  | cons first rows =>
    obtain ⟨hfirst, hmore⟩ := List.forall_mem_cons.1 hlines
    refine ⟨hfirst, ?_, fun hmarker => ?_⟩
    · refine List.forall_mem_append.2 ⟨hmore, ?_⟩
      exact List.forall_mem_singleton.2 (Row.isLine_of_text hlast)
    · rw [List.flatMap_cons, Row.chars, hmarker] at hwhole
      exact hquote (List.cons.inj hwhole).1

theorem areScalarRows_literalRows (cs : List Char) : AreScalarRows (literalRows cs) := by
  obtain ⟨hlines, hlast⟩ := Row.isLine_split cs (List.forall_mem_nil (isBreak · = false))
  refine ⟨Row.isLine_of_text ?_, ?_, cons_ne_marker (by decide) _⟩
  · have hheader : ∀ c ∈ literalHeader cs, c ∈ ['|', '2', '-', '+'] := by
      unfold literalHeader
      extract_lets indentation chomping
      have hindentation : ∀ c ∈ indentation, c = '2' := by
        intro c hc
        unfold indentation at hc
        split at hc
        · exact List.mem_singleton.1 hc
        · cases hc
      have hchomping : ∀ c ∈ chomping, c = '-' ∨ c = '+' := by
        intro c hc
        unfold chomping at hc
        split at hc
        · exact .inl (List.mem_singleton.1 hc)
        · split at hc
          · exact .inl (List.mem_singleton.1 hc)
          · split at hc
            · exact .inr (List.mem_singleton.1 hc)
            · cases hc
      intro c hc
      rcases List.mem_cons.1 hc with rfl | hc
      · decide
      · rcases List.mem_append.1 hc with hc | hc
        · rw [hindentation c hc]
          decide
        · rcases hchomping c hc with rfl | rfl <;> decide
    have hfree : ['|', '2', '-', '+'].any isBreak = false := by decide
    exact fun c hc => any_isBreak_eq_false_iff.1 hfree c (hheader c hc)
  · unfold literalRows
    dsimp only
    split
    · exact hlines
    · refine List.forall_mem_append.2 ⟨hlines, ?_⟩
      exact List.forall_mem_singleton.2 (Row.isLine_of_text hlast)

theorem isScalarLine_of_allowsPlain {cs : List Char} (h : ScalarStyle.allowsPlain cs = true) :
    IsScalarLine cs := by
  unfold ScalarStyle.allowsPlain at h
  obtain ⟨-, hfree⟩ := Bool.and_eq_true_iff.1 h
  simp only [Bool.not_eq_true', Bool.or_eq_false_iff] at hfree
  obtain ⟨⟨hbreak, -⟩, hindicator⟩ := hfree
  refine ⟨any_isBreak_eq_false_iff.1 hbreak, ?_⟩
  rintro rfl
  cases hindicator

theorem allowsPlain_of_ofText {text : String} (h : ScalarStyle.ofText text = .plain) :
    ScalarStyle.allowsPlain text.toList = true := by
  unfold ScalarStyle.ofText at h
  dsimp only at h
  split at h
  · split at h <;> cases h
  · split at h
    · next hplain => exact hplain
    · split at h <;> cases h
  · split at h <;> cases h
  · cases h

theorem areScalarRows_textRows (text : String) : AreScalarRows (textRows text) := by
  unfold textRows
  dsimp only
  split
  · next hplain =>
    exact areScalarRows_ofLine (isScalarLine_of_allowsPlain (allowsPlain_of_ofText hplain))
  · exact areScalarRows_singleRows _
  · exact areScalarRows_doubleQuoted _
  · exact areScalarRows_literalRows _

section

variable {text : List Char} {rows : List Row} {indicator : Char} {key : String}

theorem isLine_map_shift (h : ∀ row ∈ rows, row.IsLine) :
    ∀ row ∈ rows.map (Row.shift 2), row.IsLine :=
  List.forall_mem_map.2 fun row hrow => (h row hrow).shift 2

theorem isLine_lead {scalar : ScalarRows} (htext : ∀ c ∈ text, isBreak c = false)
    (hfirst : scalar.1.IsLine) (hmore : ∀ row ∈ scalar.2, row.IsLine) :
    ∀ row ∈ lead text scalar, row.IsLine := by
  refine List.forall_mem_cons.2 ⟨⟨?_, hfirst.ending⟩, isLine_map_shift hmore⟩
  exact List.forall_mem_append.2 ⟨htext, hfirst.text⟩

theorem isLine_hang (hindicator : isBreak indicator = false) (h : ∀ row ∈ rows, row.IsLine) :
    ∀ row ∈ hang indicator rows, row.IsLine := by
  cases rows with
  | nil =>
    refine List.forall_mem_singleton.2 (Row.isLine_of_text ?_)
    exact List.forall_mem_singleton.2 hindicator
  | cons first rest =>
    obtain ⟨hfirst, hrest⟩ := List.forall_mem_cons.1 h
    refine isLine_lead (fun c hc => ?_) hfirst hrest
    rcases List.mem_cons.1 hc with rfl | hc
    · exact hindicator
    · obtain rfl := List.mem_singleton.1 hc
      rfl

theorem isLine_entryRows {body : Body} (h : ∀ row ∈ body.rows, row.IsLine) :
    ∀ row ∈ entryRows key body, row.IsLine := by
  obtain ⟨hfirst, hmore, -⟩ := areScalarRows_textRows key
  unfold entryRows
  split
  · have hkey : ∀ c ∈ keyText key ++ [':'], isBreak c = false := by
      refine List.forall_mem_append.2 ⟨hfirst.text, ?_⟩
      exact List.forall_mem_singleton.2 rfl
    cases body with
    | scalar rows =>
      obtain ⟨hfirst, hmore⟩ := List.forall_mem_cons.1 h
      refine isLine_lead ?_ hfirst hmore
      rw [List.append_cons]
      exact List.forall_mem_append.2 ⟨hkey, List.forall_mem_singleton.2 rfl⟩
    | items rows => exact List.forall_mem_cons.2 ⟨Row.isLine_of_text hkey, h⟩
    | entries rows =>
      exact List.forall_mem_cons.2 ⟨Row.isLine_of_text hkey, isLine_map_shift h⟩
  · refine List.forall_mem_append.2 ⟨isLine_hang rfl ?_, isLine_hang rfl h⟩
    exact List.forall_mem_cons.2 ⟨hfirst, hmore⟩

end

theorem isLine_ofLine {text : List Char} (h : ∀ c ∈ text, isBreak c = false) :
    ∀ row ∈ (Body.scalar (ofLine text)).rows, row.IsLine :=
  List.forall_mem_singleton.2 (Row.isLine_of_text h)

mutual

/-- The rows of every tree are lines, by induction on the tree. -/
theorem isLine_body (json : Json) : ∀ row ∈ (body json).rows, row.IsLine := by
  cases json with
  | null => exact isLine_ofLine (any_isBreak_eq_false_iff.1 (by decide))
  | bool b => cases b <;> exact isLine_ofLine (any_isBreak_eq_false_iff.1 (by decide))
  | int n => exact isLine_ofLine (isScalarLine_int n).oneLine
  | float x => exact isLine_ofLine (isScalarLine_float x).oneLine
  | text s =>
    obtain ⟨hfirst, hmore, -⟩ := areScalarRows_textRows s
    exact List.forall_mem_cons.2 ⟨hfirst, hmore⟩
  | list items =>
    have hitems := isLine_itemRows items
    cases items with
    | nil => exact isLine_ofLine (any_isBreak_eq_false_iff.1 (by decide))
    | cons item rest => exact hitems
  | object members =>
    have hmembers := isLine_memberRows members
    cases members with
    | nil => exact isLine_ofLine (any_isBreak_eq_false_iff.1 (by decide))
    | cons member rest => exact hmembers

theorem isLine_itemRows (items : List Json) : ∀ row ∈ itemRows items, row.IsLine := by
  cases items with
  | nil => exact List.forall_mem_nil _
  | cons item rest =>
    exact List.forall_mem_append.2 ⟨isLine_hang rfl (isLine_body item), isLine_itemRows rest⟩

theorem isLine_memberRows (members : List (String × Json)) :
    ∀ row ∈ memberRows members, row.IsLine := by
  cases members with
  | nil => exact List.forall_mem_nil _
  | cons member rest =>
    obtain ⟨key, value⟩ := member
    exact List.forall_mem_append.2 ⟨isLine_entryRows (isLine_body value), isLine_memberRows rest⟩

end

/-- Every row of a document is one line. -/
theorem isLine_rows (json : Json) : ∀ row ∈ rows json, row.IsLine := by
  have hbody := isLine_body json
  unfold rows
  cases hjson : body json with
  | scalar scalar =>
    rw [hjson] at hbody
    obtain ⟨hfirst, hmore⟩ := List.forall_mem_cons.1 hbody
    exact isLine_lead (List.forall_mem_nil _) hfirst hmore
  | items | entries =>
    rw [hjson] at hbody
    exact hbody

theorem ne_marker_map_shift (rows : List Row) :
    ∀ row ∈ rows.map (Row.shift 2), row.text ≠ marker :=
  List.forall_mem_map.2 fun row _ => row.shift_ne_marker

theorem ne_marker_lead {text : List Char} {scalar : ScalarRows}
    (h : text ++ scalar.1.text ≠ marker) : ∀ row ∈ lead text scalar, row.text ≠ marker :=
  List.forall_mem_cons.2 ⟨h, ne_marker_map_shift scalar.2⟩

/-- What follows an indicator or stands below it is no marker. -/
theorem ne_marker_hang (indicator : Char) (rows : List Row) :
    ∀ row ∈ hang indicator rows, row.text ≠ marker := by
  cases rows with
  | nil =>
    refine List.forall_mem_singleton.2 fun h => ?_
    exact List.cons_ne_nil _ _ (List.cons.inj h).2.symm
  | cons first rest =>
    refine ne_marker_lead fun h => ?_
    have hspace : ' ' = '-' := (List.cons.inj (List.cons.inj h).2).1
    exact absurd hspace (by decide)

theorem ne_marker_itemRows (items : List Json) : ∀ row ∈ itemRows items, row.text ≠ marker := by
  induction items with
  | nil => exact List.forall_mem_nil _
  | cons item rest ih => exact List.forall_mem_append.2 ⟨ne_marker_hang '-' _, ih⟩

/-- What has a colon is not the marker. -/
theorem ne_marker_of_colon {text : List Char} (h : ':' ∈ text) : text ≠ marker := by
  rintro rfl
  exact absurd h (by decide)

theorem ne_marker_entryRows (key : String) {body : Body}
    (h : ∀ rows, body = .items rows → ∀ row ∈ rows, row.text ≠ marker) :
    ∀ row ∈ entryRows key body, row.text ≠ marker := by
  unfold entryRows
  split
  · cases body with
    | scalar rows => exact ne_marker_lead (ne_marker_of_colon (by simp))
    | items rows => exact List.forall_mem_cons.2 ⟨ne_marker_of_colon (by simp), h rows rfl⟩
    | entries rows =>
      exact List.forall_mem_cons.2 ⟨ne_marker_of_colon (by simp), ne_marker_map_shift rows⟩
  · exact List.forall_mem_append.2 ⟨ne_marker_hang '?' _, ne_marker_hang ':' _⟩

theorem ne_marker_memberRows (members : List (String × Json)) :
    ∀ row ∈ memberRows members, row.text ≠ marker := by
  induction members with
  | nil => exact List.forall_mem_nil _
  | cons member rest ih =>
    obtain ⟨key, value⟩ := member
    refine List.forall_mem_append.2 ⟨ne_marker_entryRows key fun rows hrows => ?_, ih⟩
    cases value with
    | list items =>
      cases items with
      | nil => cases hrows
      | cons item rest =>
        obtain rfl := Body.items.inj hrows
        exact ne_marker_itemRows _
    | object members => cases members <;> cases hrows
    | _ => cases hrows

/-- No row of a document is the marker between documents. -/
theorem rows_ne_marker (json : Json) : ∀ row ∈ rows json, row.text ≠ marker := by
  cases json with
  | null => exact ne_marker_lead (by decide)
  | bool b => cases b <;> exact ne_marker_lead (by decide)
  | int n => exact ne_marker_lead (isScalarLine_int n).ne_marker
  | float x => exact ne_marker_lead (isScalarLine_float x).ne_marker
  | text s => exact ne_marker_lead (areScalarRows_textRows s).ne_marker
  | list items =>
    cases items with
    | nil => exact ne_marker_lead (by decide)
    | cons item rest => exact ne_marker_itemRows _
  | object members =>
    cases members with
    | nil => exact ne_marker_lead (by decide)
    | cons member rest => exact ne_marker_memberRows _

/-- Whether a text is written as it is and ends with a break other than a line feed. -/
def opensEnd (text : String) : Bool :=
  ScalarStyle.ofText text = .literal && text.toList.getLast?.any fun c => isBreak c && c ≠ '\n'

mutual

/-- The text that the document of a tree ends with. -/
def lastText? : Json → Option String
  | .text s => some s
  | .list items => lastItemText? items
  | .object members => lastMemberText? members
  | _ => none

def lastItemText? : List Json → Option String
  | [] => none
  | [item] => lastText? item
  | _ :: rest => lastItemText? rest

def lastMemberText? : List (String × Json) → Option String
  | [] => none
  | [(_, value)] => lastText? value
  | _ :: rest => lastMemberText? rest

end

/-- Whether the document of a tree does not end with a line feed. -/
def endsOpen (json : Json) : Bool := (lastText? json).any opensEnd

/-- How rows end, given whether that is with another break than a line feed. -/
def EndsAs (rows : List Row) (isOpen : Bool) : Prop :=
  ∃ c, (rows.map (·.ending)).getLast? = some c ∧ (c ≠ '\n' ↔ isOpen = true)

section

variable {rows : List Row} {isOpen : Bool}

theorem EndsAs.ne_nil (h : EndsAs rows isOpen) : rows ≠ [] := by
  rintro rfl
  obtain ⟨c, hc, -⟩ := h
  cases hc

theorem EndsAs.append (h : EndsAs rows isOpen) (before : List Row) :
    EndsAs (before ++ rows) isOpen := by
  obtain ⟨c, hc, hopen⟩ := h
  refine ⟨c, ?_, hopen⟩
  rw [List.map_append, List.getLast?_append, hc, Option.some_or]

theorem EndsAs.of_endings {rows' : List Row} (h : EndsAs rows isOpen)
    (hendings : rows'.map (·.ending) = rows.map (·.ending)) : EndsAs rows' isOpen := by
  unfold EndsAs
  rw [hendings]
  exact h

theorem EndsAs.map_shift (h : EndsAs rows isOpen) (n : Nat) :
    EndsAs (rows.map (Row.shift n)) isOpen := by
  refine h.of_endings ?_
  rw [List.map_map]
  exact List.map_congr_left fun row _ => row.ending_shift n

theorem EndsAs.lead {scalar : ScalarRows} (h : EndsAs (scalar.1 :: scalar.2) isOpen)
    (text : List Char) : EndsAs (lead text scalar) isOpen := by
  refine h.of_endings ?_
  unfold Printer.lead
  rw [List.map_cons, List.map_cons, List.map_map]
  congr 1
  exact List.map_congr_left fun row _ => row.ending_shift 2

theorem EndsAs.hang (h : EndsAs rows isOpen) (indicator : Char) :
    EndsAs (hang indicator rows) isOpen := by
  cases rows with
  | nil => exact absurd rfl h.ne_nil
  | cons first rest => exact EndsAs.lead h [indicator, ' ']

theorem EndsAs.entryRows {body : Body} (h : EndsAs body.rows isOpen) (key : String) :
    EndsAs (entryRows key body) isOpen := by
  unfold Printer.entryRows
  split
  · cases body with
    | scalar rows => exact EndsAs.lead h _
    | items rows => exact EndsAs.append h [_]
    | entries rows => exact EndsAs.append (EndsAs.map_shift h 2) [_]
  · exact (h.hang ':').append _

end

theorem endsAs_ofLine (text : List Char) : EndsAs (Body.scalar (ofLine text)).rows false :=
  ⟨'\n', rfl, by decide⟩

theorem endsAs_singleRows (cs : List Char) : EndsAs (Body.scalar (singleRows cs)).rows false := by
  unfold singleRows
  split
  · exact endsAs_ofLine _
  · next first rows last _ =>
    have hlast : EndsAs [⟨last, '\n'⟩] false := ⟨'\n', rfl, by decide⟩
    exact hlast.append (first :: rows)

/-- A literal block ends as its text does, or with a line feed that is added. -/
theorem endsAs_literalRows {cs : List Char} (hne : cs ≠ []) :
    EndsAs (Body.scalar (literalRows cs)).rows
      (cs.getLast?.any fun c => isBreak c && c ≠ '\n') := by
  have hrows : (Body.scalar (literalRows cs)).rows =
      [⟨literalHeader cs, '\n'⟩] ++ (if (Row.split [] cs).2.isEmpty then (Row.split [] cs).1
        else (Row.split [] cs).1 ++ [⟨(Row.split [] cs).2, '\n'⟩]) := rfl
  rw [hrows]
  by_cases hlast : (Row.split [] cs).2 = []
  · have hbreaks := (Row.isLine_split cs (List.forall_mem_nil (isBreak · = false))).1
    obtain ⟨row, hrow⟩ : ∃ row, (Row.split [] cs).1.getLast? = some row := by
      rw [← Option.isSome_iff_exists, ← Option.isSome_map (f := (·.ending)),
        Row.getLast?_split_of_eq_nil hlast]
      simpa using hne
    have hending := Row.getLast?_split_of_eq_nil hlast
    rw [hrow, Option.map_some] at hending
    rw [hlast, List.isEmpty_nil, if_pos rfl, ← hending]
    refine EndsAs.append ⟨row.ending, ?_, ?_⟩ _
    · rw [List.getLast?_map, hrow]
      rfl
    · simp [(hbreaks row (List.mem_of_getLast? hrow)).ending]
  · obtain ⟨c, hc, hbreak⟩ := Row.getLast?_split_of_ne_nil hlast
    have hclosed : EndsAs [⟨(Row.split [] cs).2, '\n'⟩] false := ⟨'\n', rfl, by decide⟩
    rw [if_neg (by simpa using hlast), hc, Option.any_some, hbreak, Bool.false_and]
    exact (hclosed.append _).append _

theorem ne_nil_of_ofText {text : String} (h : ScalarStyle.ofText text = .literal) :
    text.toList ≠ [] := by
  rintro hnil
  obtain rfl := String.toList_eq_nil_iff.1 hnil
  revert h
  decide +kernel

theorem endsAs_textRows (text : String) :
    EndsAs (Body.scalar (textRows text)).rows (opensEnd text) := by
  unfold textRows opensEnd
  dsimp only
  split
  · next hplain =>
    rw [hplain]
    exact endsAs_ofLine _
  · next hsingle =>
    rw [hsingle]
    exact endsAs_singleRows _
  · next hdouble =>
    rw [hdouble]
    exact endsAs_ofLine _
  · next hliteral =>
    rw [hliteral]
    exact endsAs_literalRows (ne_nil_of_ofText hliteral)

mutual

theorem endsAs_body (json : Json) : EndsAs (body json).rows (endsOpen json) := by
  cases json with
  | null => exact endsAs_ofLine _
  | bool b => exact endsAs_ofLine _
  | int n => exact endsAs_ofLine _
  | float x => exact endsAs_ofLine _
  | text s => exact endsAs_textRows s
  | list items =>
    have hitems := endsAs_itemRows items
    cases items with
    | nil => exact endsAs_ofLine _
    | cons item rest => exact hitems (List.cons_ne_nil item rest)
  | object members =>
    have hmembers := endsAs_memberRows members
    cases members with
    | nil => exact endsAs_ofLine _
    | cons member rest => exact hmembers (List.cons_ne_nil member rest)

theorem endsAs_itemRows (items : List Json) (hne : items ≠ []) :
    EndsAs (itemRows items) ((lastItemText? items).any opensEnd) := by
  cases items with
  | nil => exact absurd rfl hne
  | cons item rest =>
    have hitem := endsAs_body item
    have hrest := endsAs_itemRows rest
    cases rest with
    | nil =>
      rw [itemRows, itemRows, List.append_nil]
      exact hitem.hang '-'
    | cons next rest => exact (hrest (List.cons_ne_nil next rest)).append _

theorem endsAs_memberRows (members : List (String × Json)) (hne : members ≠ []) :
    EndsAs (memberRows members) ((lastMemberText? members).any opensEnd) := by
  cases members with
  | nil => exact absurd rfl hne
  | cons member rest =>
    obtain ⟨key, value⟩ := member
    have hvalue := endsAs_body value
    have hrest := endsAs_memberRows rest
    cases rest with
    | nil =>
      rw [memberRows, memberRows, List.append_nil]
      exact hvalue.entryRows key
    | cons next rest => exact (hrest (List.cons_ne_nil next rest)).append _

end

/-- A document ends with a line feed unless its tree ends open. -/
theorem endsAs_rows (json : Json) : EndsAs (rows json) (endsOpen json) := by
  have hbody := endsAs_body json
  unfold rows
  cases hjson : body json with
  | scalar scalar =>
    rw [hjson] at hbody
    exact EndsAs.lead hbody []
  | items | entries =>
    rw [hjson] at hbody
    exact hbody

theorem linesOf_flatMap_chars {rows : List Row} (h : ∀ row ∈ rows, row.IsLine) :
    linesOf isBreak (rows.flatMap Row.chars) = rows.map Row.chars := by
  induction rows with
  | nil => rfl
  | cons row rest ih =>
    obtain ⟨hrow, hrest⟩ := List.forall_mem_cons.1 h
    have hwhole : IsWhole isBreak row.chars := by
      intro c hc
      rw [Row.chars, List.getLast?_concat] at hc
      exact Option.some.inj hc ▸ hrow.ending
    rw [List.flatMap_cons, linesOf_append hwhole, ih hrest]
    exact congrArg (· ++ _) (linesOf_concat hrow.text row.ending)

theorem toList_print (json : Json) : (print json).toList = (rows json).flatMap Row.chars :=
  String.toList_ofList

/-- No line of a document is the marker, whichever breaks are counted. -/
theorem not_isMarker_of_mem_linesOf_print {ends : Char → Bool}
    (hends : ∀ c, ends c = true → isBreak c = true) (json : Json) :
    ∀ line ∈ linesOf ends (print json).toList, isMarker ends line = false := by
  intro line hline
  rw [← Bool.not_eq_true]
  intro hmarker
  obtain ⟨first, hfirst, hisMarker⟩ :=
    exists_isMarker_of_fine hends (not_ends_of_mem_marker rfl) hline hmarker
  rw [toList_print, linesOf_flatMap_chars (isLine_rows json)] at hfirst
  obtain ⟨row, hrow, rfl⟩ := List.mem_map.1 hfirst
  have htext := of_decide_eq_true hisMarker
  rw [Row.chars, takeWhile_line (isLine_rows json row hrow).text (isLine_rows json row hrow).ending]
    at htext
  exact rows_ne_marker json row hrow htext

/-- A document ends with a break. -/
theorem isWhole_print (json : Json) : IsWhole isBreak (print json).toList := by
  intro c hc
  rw [toList_print, Row.getLast?_flatMap_chars] at hc
  obtain ⟨row, hrow, rfl⟩ := Option.map_eq_some_iff.1 hc
  exact (isLine_rows json row (List.mem_of_getLast? hrow)).ending

/-- A document ends with a line feed exactly if its tree does not end open. -/
theorem getLast?_print_iff (json : Json) :
    (print json).toList.getLast? = some '\n' ↔ endsOpen json = false := by
  obtain ⟨c, hc, hopen⟩ := endsAs_rows json
  rw [toList_print, Row.getLast?_flatMap_chars, ← List.getLast?_map, hc, ← Bool.not_eq_true,
    ← hopen, not_not, Option.some.injEq]

theorem print_ne_nil (json : Json) : (print json).toList ≠ [] := by
  obtain ⟨c, hc, -⟩ := endsAs_rows json
  rintro hnil
  rw [← List.getLast?_eq_none_iff, toList_print, Row.getLast?_flatMap_chars, ← List.getLast?_map,
    hc] at hnil
  cases hnil

end Printer

end ServerManifests.Yaml
