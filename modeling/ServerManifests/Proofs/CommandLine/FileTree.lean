import Mathlib.Data.List.Infix
import ServerManifests.CommandLine.FileTree
import ServerManifests.Proofs.Success

/-!
Writing into a directory of a tree. A file that is put into a directory changes what
stands at its own place only, so every walk that succeeded still does, and what is
written under one name can be read whatever is written under other names later.
-/
namespace ServerManifests.CommandLine

/-- The files of one directory have paths that differ in their names only. -/
theorem exists_toList_pathIn (directory : String) :
    ∃ outer, ∀ name, (pathIn directory name).toList = outer ++ '/' :: name.toList := by
  by_cases hslash : directory.endsWith "/"
  · obtain ⟨outer, houter⟩ : ['/'] <:+ directory.toList := by
      rw [String.endsWith_eq_endsWith_toSlice] at hslash
      simpa using String.Slice.endsWith_string_iff.1 hslash
    refine ⟨outer, fun name => ?_⟩
    rw [pathIn, if_pos hslash, String.toList_append, ← houter]
    simp
  · refine ⟨directory.toList, fun name => ?_⟩
    rw [pathIn, if_neg hslash]
    simp

/-- A name that stands for itself on a path. -/
structure IsPlainName (name : String) : Prop where
  noSlash : '/' ∉ name.toList
  ne_empty : name ≠ ""
  ne_dot : name ≠ "."
  ne_dots : name ≠ ".."
  short : name.utf8ByteSize ≤ FileTree.maxNameBytes

/-- A file has the names of its directory and then its own. -/
theorem segments_pathIn (directory : String) :
    ∃ outer, ∀ name, IsPlainName name → segments (pathIn directory name) = outer ++ [name] := by
  obtain ⟨outer, houter⟩ := exists_toList_pathIn directory
  refine ⟨(outer.splitOn '/').map String.ofList, fun name hname => ?_⟩
  rw [segments, houter, List.splitOn_append_cons_self, List.splitOn_eq_singleton hname.noSlash]
  simp

theorem startsWith_pathIn (directory name other : String) :
    (pathIn directory name).startsWith "/" = (pathIn directory other).startsWith "/" := by
  obtain ⟨outer, houter⟩ := exists_toList_pathIn directory
  rw [Bool.eq_iff_iff, String.startsWith_string_iff, String.startsWith_string_iff, houter, houter]
  cases outer with
  | nil => simp
  | cons c rest => simp

theorem filter_concat {names : List String} {name : String} (hname : name ≠ "") :
    (names ++ [name]).filter (· ≠ "") = names.filter (· ≠ "") ++ [name] := by
  rw [List.filter_append, List.filter_cons_of_pos (by simpa using hname), List.filter_nil]

namespace FileTree

variable {tree tree' : FileTree} {place : FilePlace} {directory name : String}

theorem lookup_filter_ne (entries : List (FilePlace × FileEntry)) {place other : FilePlace}
    (hne : other ≠ place) :
    (entries.filter (·.1 ≠ place)).lookup other = entries.lookup other := by
  induction entries with
  | nil => rfl
  | cons e rest ih =>
    obtain ⟨key, entry⟩ := e
    by_cases hkey : key = place
    · have hother : (other == key) = false := by simpa [hkey] using hne
      rw [List.filter_cons_of_neg (by simp [hkey]), List.lookup_cons, hother]
      exact ih
    · rw [List.filter_cons_of_pos (by simp [hkey]), List.lookup_cons, List.lookup_cons, ih]

/-- Whether something lies at a place or below it. -/
def Reaches (tree : FileTree) (place : FilePlace) : Prop :=
  ∃ inner ∈ tree.home :: tree.entries.map (·.1), place <+: inner

theorem reaches_iff_any : tree.Reaches place ↔
    ((tree.home :: tree.entries.map (·.1)).any fun inner => place.isPrefixOf inner) = true := by
  unfold Reaches
  simp only [List.any_eq_true, List.isPrefixOf_iff_prefix]

theorem entry?_congr (hlookup : tree.entries.lookup place = tree'.entries.lookup place)
    (hreaches : tree.Reaches place ↔ tree'.Reaches place) :
    tree.entry? place = tree'.entry? place := by
  rw [reaches_iff_any, reaches_iff_any, ← Bool.eq_iff_iff] at hreaches
  unfold entry?
  rw [hlookup, hreaches]

/-- Where something stands, some entry lies at the place or below it. -/
theorem reaches_of_isSome (h : (tree.entry? place).isSome = true) : tree.Reaches place := by
  unfold entry? at h
  cases hlookup : tree.entries.lookup place with
  | some entry =>
    obtain ⟨before, after, hsplit, -⟩ := List.lookup_eq_some_iff.1 hlookup
    refine ⟨place, List.mem_cons_of_mem _ ?_, List.prefix_refl place⟩
    rw [hsplit]
    simp
  | none =>
    rw [hlookup] at h
    rw [reaches_iff_any]
    by_contra hnone
    dsimp only at h
    rw [if_neg hnone] at h
    cases h

theorem isSome_of_isDirectory (h : tree.isDirectory place = true) :
    (tree.entry? place).isSome = true := by
  rw [of_decide_eq_true h]
  rfl

/-- What is put into a directory changes what stands at its own place only. -/
theorem entry?_put {entry : FileEntry} (h : tree.isDirectory place = true)
    (other : FilePlace) :
    FileTree.entry? (tree.put (place ++ [name]) entry) other =
      if other = place ++ [name] then some entry else tree.entry? other := by
  by_cases hother : other = place ++ [name]
  · rw [if_pos hother, hother]
    unfold entry? put
    rw [List.lookup_cons_self]
  · rw [if_neg hother]
    apply entry?_congr
    · have hne : (other == place ++ [name]) = false := by simpa using hother
      have hput : (tree.put (place ++ [name]) entry).entries =
        (place ++ [name], entry) :: tree.entries.filter (·.1 ≠ place ++ [name]) := rfl
      rw [hput, List.lookup_cons, hne]
      exact lookup_filter_ne tree.entries hother
    · constructor
      · rintro ⟨inner, hinner, hprefix⟩
        rcases List.mem_cons.1 hinner with rfl | hinner
        · exact ⟨tree.home, List.mem_cons_self, hprefix⟩
        · obtain ⟨e, he, rfl⟩ := List.mem_map.1 hinner
          rcases List.mem_cons.1 he with rfl | he
          · -- Around the new entry are the directory it is put into and those around that.
            obtain ⟨below, hbelow, hplace⟩ := reaches_of_isSome (isSome_of_isDirectory h)
            have hother' : other <+: place :=
              (List.prefix_concat_iff.1 hprefix).resolve_left hother
            exact ⟨below, hbelow, hother'.trans hplace⟩
          · exact ⟨e.1, List.mem_cons_of_mem _ (List.mem_map_of_mem (List.mem_of_mem_filter he)),
              hprefix⟩
      · rintro ⟨inner, hinner, hprefix⟩
        rcases List.mem_cons.1 hinner with rfl | hinner
        · exact ⟨tree.home, List.mem_cons_self, hprefix⟩
        · refine ⟨inner, List.mem_cons_of_mem _ ?_, hprefix⟩
          obtain ⟨e, he, rfl⟩ := List.mem_map.1 hinner
          by_cases hkey : e.1 = place ++ [name]
          · rw [hkey]
            exact List.mem_cons_self
          · exact List.mem_cons_of_mem _ (List.mem_map_of_mem
              (List.mem_filter.2 ⟨he, by simpa using hkey⟩))

/-- Every directory of the one tree is a directory of the other, and what stands in the
one stands in the other. -/
structure Extends (tree tree' : FileTree) : Prop where
  home : tree'.home = tree.home
  directory : ∀ place, tree.isDirectory place = true → tree'.isDirectory place = true
  present : ∀ place, (tree.entry? place).isSome = true → (tree'.entry? place).isSome = true

/-- A file where no directory is leaves all walks as they are. -/
theorem extends_put {text : Option String} (h : tree.isDirectory place = true)
    (hfree : tree.isDirectory (place ++ [name]) = false) :
    tree.Extends (tree.put (place ++ [name]) (.file text)) where
  home := rfl
  directory other hother := by
    have hne : other ≠ place ++ [name] := by
      rintro rfl
      rw [hfree] at hother
      cases hother
    unfold isDirectory
    rw [entry?_put h, if_neg hne]
    exact hother
  present other hother := by
    rw [entry?_put h]
    split
    · rfl
    · exact hother

theorem Extends.child {next : FilePlace} (h : tree.Extends tree')
    (hchild : tree.child place name = .ok next) : tree'.child place name = .ok next := by
  unfold FileTree.child at hchild ⊢
  cases hplace : tree.isDirectory place with
  | false =>
    rw [hplace] at hchild
    cases hchild
  | true =>
    rw [hplace] at hchild
    rw [h.directory place hplace]
    exact hchild

theorem step_eq_ok_iff {next : FilePlace} :
    tree.step place name = .ok next ↔
      tree.child place name = .ok next ∧ (tree.entry? next).isSome = true := by
  unfold step
  rw [bind_eq_ok_iff]
  constructor
  · rintro ⟨next', hchild, h⟩
    split at h
    · next hsome =>
      obtain rfl := Except.ok.inj h
      exact ⟨hchild, hsome⟩
    · cases h
  · rintro ⟨hchild, hsome⟩
    exact ⟨next, hchild, if_pos hsome⟩

theorem Extends.step {next : FilePlace} (h : tree.Extends tree')
    (hstep : tree.step place name = .ok next) : tree'.step place name = .ok next := by
  obtain ⟨hchild, hsome⟩ := step_eq_ok_iff.1 hstep
  exact step_eq_ok_iff.2 ⟨h.child hchild, h.present next hsome⟩

theorem Extends.foldlM_step {names : List String} {last : FilePlace} (h : tree.Extends tree')
    (hwalk : names.foldlM tree.step place = .ok last) :
    names.foldlM tree'.step place = .ok last := by
  induction names generalizing place with
  | nil => exact hwalk
  | cons name rest ih =>
    rw [List.foldlM_cons] at hwalk ⊢
    obtain ⟨next, hstep, hrest⟩ := bind_eq_ok_iff.1 hwalk
    exact bind_eq_ok_iff.2 ⟨next, h.step hstep, ih hrest⟩

/-- The directory that a path puts something into. -/
def outerPlace (tree : FileTree) (path : String) : Except FileProblem FilePlace := do
  ((segments path).filter (· ≠ "")).dropLast.foldlM tree.step (← tree.start path)

theorem Extends.outerPlace {path : String} (h : tree.Extends tree')
    (hplace : tree.outerPlace path = .ok place) : tree'.outerPlace path = .ok place := by
  obtain ⟨start, hstart, hwalk⟩ := bind_eq_ok_iff.1 hplace
  refine bind_eq_ok_iff.2 ⟨start, ?_, h.foldlM_step hwalk⟩
  unfold FileTree.start at hstart ⊢
  rw [h.home]
  exact hstart

theorem step_of_not_isDirectory (h : tree.isDirectory place = false) (name : String) :
    tree.step place name = .error .notDirectory := by
  unfold step child
  rw [h]
  rfl

theorem step_empty (h : tree.isDirectory place = true) : tree.step place "" = .ok place := by
  refine step_eq_ok_iff.2 ⟨?_, isSome_of_isDirectory h⟩
  unfold child
  rw [h]
  rfl

/-- Empty names on the way to a name change nothing. -/
theorem foldlM_step_filter (names : List String) (name : String) :
    (names ++ [name]).foldlM tree.step place =
      (names.filter (· ≠ "") ++ [name]).foldlM tree.step place := by
  induction names generalizing place with
  | nil => rfl
  | cons first rest ih =>
    by_cases hfirst : first = ""
    · rw [List.filter_cons_of_neg (by simpa using hfirst), ← ih, List.cons_append,
        List.foldlM_cons, hfirst]
      cases hplace : tree.isDirectory place with
      | true =>
        rw [step_empty hplace]
        rfl
      | false =>
        -- The next name fails in the same way.
        obtain ⟨next, names, hnext⟩ := List.exists_cons_of_ne_nil
          (List.append_ne_nil_of_right_ne_nil rest (List.cons_ne_nil name []))
        rw [hnext, List.foldlM_cons, step_of_not_isDirectory hplace,
          step_of_not_isDirectory hplace]
        rfl
    · rw [List.filter_cons_of_pos (by simpa using hfirst), List.cons_append, List.cons_append,
        List.foldlM_cons, List.foldlM_cons]
      exact bind_congr fun next => ih

theorem child_of_isPlainName (hname : IsPlainName name) :
    tree.child place name =
      if tree.isDirectory place then .ok (place ++ [name]) else .error .notDirectory := by
  unfold child
  cases tree.isDirectory place with
  | false => rfl
  | true => simp [hname.ne_empty, hname.ne_dot, hname.ne_dots, hname.short]

theorem locateNew_pathIn (hname : IsPlainName name) (directory : String) :
    tree.locateNew (pathIn directory name) =
      tree.outerPlace (pathIn directory name) >>= fun place => tree.child place name := by
  obtain ⟨outer, houter⟩ := segments_pathIn directory
  unfold locateNew outerPlace
  rw [houter name hname, filter_concat hname.ne_empty, bind_assoc]
  dsimp only
  rw [List.dropLast_concat, List.getLast?_concat, Option.getD_some]

theorem locate_pathIn (hname : IsPlainName name) (directory : String) :
    tree.locate (pathIn directory name) =
      tree.outerPlace (pathIn directory name) >>= fun place => tree.step place name := by
  obtain ⟨outer, houter⟩ := segments_pathIn directory
  unfold locate outerPlace
  rw [houter name hname, filter_concat hname.ne_empty, List.dropLast_concat, bind_assoc]
  refine bind_congr fun start => ?_
  rw [foldlM_step_filter, List.foldlM_append]
  refine bind_congr fun place => ?_
  rw [List.foldlM_cons]
  exact bind_pure _

/-- The directory of a path does not depend on the name of the file. -/
theorem outerPlace_unique {other : String} {place' : FilePlace} (hname : IsPlainName name)
    (hother : IsPlainName other) (h : tree.outerPlace (pathIn directory name) = .ok place)
    (h' : tree.outerPlace (pathIn directory other) = .ok place') : place = place' := by
  obtain ⟨outer, houter⟩ := segments_pathIn directory
  obtain ⟨start, hstart, hwalk⟩ := bind_eq_ok_iff.1 h
  obtain ⟨start', hstart', hwalk'⟩ := bind_eq_ok_iff.1 h'
  have hsame : start = start' := by
    unfold FileTree.start at hstart hstart'
    split at hstart
    · cases hstart
    · split at hstart'
      · cases hstart'
      · rw [startsWith_pathIn directory name other] at hstart
        exact Except.ok.inj (hstart.symm.trans hstart')
  rw [houter name hname, filter_concat hname.ne_empty, List.dropLast_concat] at hwalk
  rw [houter other hother, filter_concat hother.ne_empty, List.dropLast_concat, ← hsame,
    hwalk] at hwalk'
  exact Except.ok.inj hwalk'

/-- A directory at a place, into which a file of a name can be written. -/
structure Receives (tree : FileTree) (directory name : String) (place : FilePlace) : Prop where
  plain : IsPlainName name
  isDirectory : tree.isDirectory place = true
  outer : tree.outerPlace (pathIn directory name) = .ok place
  free : tree.isDirectory (place ++ [name]) = false

theorem receives_of_writeText (hname : IsPlainName name) {content : String}
    (h : tree.writeText (pathIn directory name) content = .ok tree') :
    ∃ place, tree.Receives directory name place := by
  obtain ⟨new, hnew, hwrite⟩ := bind_eq_ok_iff.1 h
  rw [locateNew_pathIn hname] at hnew
  obtain ⟨place, houter, hchild⟩ := bind_eq_ok_iff.1 hnew
  rw [child_of_isPlainName hname] at hchild
  cases hplace : tree.isDirectory place with
  | false =>
    rw [hplace] at hchild
    cases hchild
  | true =>
    rw [hplace] at hchild
    obtain rfl := Except.ok.inj hchild
    refine ⟨place, hname, hplace, houter, ?_⟩
    split at hwrite
    · cases hwrite
    · next hfree => exact Bool.eq_false_iff.2 hfree

namespace Receives

theorem writeText (h : tree.Receives directory name place) (content : String) :
    tree.writeText (pathIn directory name) content =
      .ok (tree.put (place ++ [name]) (.file (some content))) := by
  unfold FileTree.writeText
  rw [locateNew_pathIn h.plain, h.outer]
  refine bind_eq_ok_iff.2 ⟨place ++ [name], ?_, ?_⟩
  · refine bind_eq_ok_iff.2 ⟨place, rfl, ?_⟩
    rw [child_of_isPlainName h.plain, if_pos h.isDirectory]
  · rw [if_neg (Bool.eq_false_iff.1 h.free)]
    rfl

/-- A file that is written into the directory leaves it ready for the others. -/
theorem put {other : String} (h : tree.Receives directory name place)
    (hother : tree.Receives directory other place) (text : Option String) :
    (tree.put (place ++ [other]) (.file text)).Receives directory name place := by
  have hextends : tree.Extends (tree.put (place ++ [other]) (.file text)) :=
    extends_put hother.isDirectory hother.free
  refine ⟨h.plain, hextends.directory place h.isDirectory, hextends.outerPlace h.outer, ?_⟩
  have hfree := h.free
  unfold FileTree.isDirectory at hfree ⊢
  rw [entry?_put h.isDirectory]
  split
  · rfl
  · exact hfree

theorem locate (h : tree.Receives directory name place)
    (hsome : (tree.entry? (place ++ [name])).isSome = true) :
    tree.locate (pathIn directory name) = .ok (place ++ [name]) := by
  rw [locate_pathIn h.plain, h.outer]
  refine bind_eq_ok_iff.2 ⟨place, rfl, step_eq_ok_iff.2 ⟨?_, hsome⟩⟩
  rw [child_of_isPlainName h.plain, if_pos h.isDirectory]

theorem readText (h : tree.Receives directory name place) {text : String}
    (hentry : tree.entry? (place ++ [name]) = some (.file (some text))) :
    tree.readText (pathIn directory name) = .ok text := by
  have hsome : (tree.entry? (place ++ [name])).isSome = true := by
    rw [hentry]
    rfl
  unfold FileTree.readText
  rw [h.locate hsome]
  refine bind_eq_ok_iff.2 ⟨place ++ [name], rfl, ?_⟩
  rw [hentry]
  rfl

end Receives

end FileTree

end ServerManifests.CommandLine
