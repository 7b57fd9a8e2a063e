import ServerManifests.Manifest.Metadata

/-!
Paths into JSON values, as far as the manifests need them: to a member of an object
and to the only item of a list.
-/
namespace ServerManifests.Json

inductive Step where
  | member (name : String)
  | only

instance : Coe String Step := ⟨.member⟩

def step? : Json → Step → Option Json
  | .object members, .member name => members.lookup name
  | .list [item], .only => some item
  | _, _ => none

/-- The value at the end of a path. -/
def at? (tree : Json) : List Step → Option Json
  | [] => some tree
  | step :: rest => (tree.step? step).bind (·.at? rest)

variable {name key : String} {value item : Json} {given : Option Json}
  {members : List (String × Json)} {rest : List (String × Option Json)} {path : List Step}

@[simp] theorem at?_nil : value.at? [] = some value := rfl

@[simp] theorem at?_only : (Json.list [item]).at? (.only :: path) = item.at? path := rfl

@[simp] theorem at?_object_here :
    (object ((name, value) :: members)).at? (.member name :: path) = value.at? path := by
  simp [at?, step?]

@[simp] theorem at?_object_later (h : name ≠ key) :
    (object ((key, value) :: members)).at? (.member name :: path) =
      (object members).at? (.member name :: path) := by
  have hkey : (name == key) = false := by simpa using h
  simp [at?, step?, List.lookup_cons, hkey]

@[simp] theorem at?_ofGiven_here :
    (ofGiven ((name, some value) :: rest)).at? (.member name :: path) = value.at? path :=
  at?_object_here

/-- A member of another name does not matter, given or not. -/
@[simp] theorem at?_ofGiven_later (h : name ≠ key) :
    (ofGiven ((key, given) :: rest)).at? (.member name :: path) =
      (ofGiven rest).at? (.member name :: path) := by
  cases given with
  | none => rfl
  | some value => exact at?_object_later h

theorem at?_ofGiven_absent (h : ∀ member ∈ rest, name ≠ member.1) :
    (ofGiven rest).at? (.member name :: path) = none := by
  induction rest with
  | nil => rfl
  | cons member rest ih =>
    obtain ⟨hname, hrest⟩ := List.forall_mem_cons.1 h
    rw [at?_ofGiven_later hname]
    exact ih hrest

theorem at?_ofGiven_first (h : ∀ member ∈ rest, name ≠ member.1) :
    (ofGiven ((name, given) :: rest)).at? (.member name :: path) = given.bind (·.at? path) := by
  cases given with
  | none =>
    change (ofGiven rest).at? _ = none
    exact at?_ofGiven_absent h
  | some value => exact at?_ofGiven_here

theorem at?_textMap (m : TextMap String) (key : String) :
    m.toJson.at? [.member key] = (m.get? key).map .text := by
  obtain ⟨entries, hordered⟩ := m
  change ((entries.map fun e => (e.1, Json.text e.2)).lookup key).bind some =
    (entries.lookup key).map .text
  rw [Option.bind_fun_some]
  induction entries with
  | nil => rfl
  | cons e rest ih =>
    rw [List.map_cons, List.lookup_cons, List.lookup_cons]
    cases key == e.1 with
    | true => rfl
    | false => exact ih (List.pairwise_cons.1 hordered).2

/-- A map that is left out where it is empty is read like one that is not. -/
theorem at?_unlessEmpty (m : TextMap String) (key : String) :
    m.unlessEmpty.bind (·.at? [.member key]) = (m.get? key).map .text := by
  unfold TextMap.unlessEmpty
  split
  · next hempty =>
    obtain ⟨entries, hordered⟩ := m
    obtain rfl : entries = [] := List.isEmpty_iff.1 hempty
    rfl
  · exact at?_textMap m key

end ServerManifests.Json
