import ServerManifests.TextMap

/-!
Environment variables in the order in which their names first came up. A name
stands once; setting it again changes its value where it stands. An index has the
position of every name, and each operation keeps it in step with the entries.
-/
namespace ServerManifests

namespace Environment

structure Entry where
  name : String
  value : String
  deriving DecidableEq, Repr

def names (entries : List Entry) : List String := entries.map (·.name)

theorem names_append (first second : List Entry) :
    names (first ++ second) = names first ++ names second := List.map_append

/-- Another value for the entry at a position. -/
def revalue (position : Nat) (value : String) (entries : List Entry) : List Entry :=
  entries.modify position ({ · with value })

theorem names_revalue (position : Nat) (value : String) (entries : List Entry) :
    names (revalue position value entries) = names entries := by
  unfold names revalue
  apply List.ext_getElem?
  intro i
  rw [List.getElem?_map, List.getElem?_map, List.getElem?_modify]
  cases entries[i]? with
  | none => rfl
  | some entry =>
    change some (if position = i then _ else entry).name = some entry.name
    split <;> rfl

/-- An index has the position of every name, and no other names. -/
def Indexes (index : TextMap Nat) (names : List String) : Prop :=
  ∀ name position, index.get? name = some position ↔ names[position]? = some name

namespace Indexes

variable {index : TextMap Nat} {names : List String} {name : String}

theorem get?_eq_none_iff (h : Indexes index names) : index.get? name = none ↔ name ∉ names := by
  rw [Option.eq_none_iff_forall_not_mem, List.mem_iff_getElem?, not_exists]
  exact forall_congr' fun position => not_congr (h name position)

/-- Two places of one name would both be its position. -/
theorem nodup (h : Indexes index names) : names.Nodup := by
  apply List.pairwise_iff_getElem.2
  intro i j hi hj hlt heq
  have hfirst := (h names[i] i).2 (List.getElem?_eq_getElem hi)
  have hsecond := (h names[i] j).2 (heq ▸ List.getElem?_eq_getElem hj)
  have hsame : i = j := Option.some.inj (hfirst.symm.trans hsecond)
  omega

theorem concat (h : Indexes index names) (hnew : index.get? name = none) :
    Indexes (index.insert name names.length) (names ++ [name]) := by
  intro name' position
  have hnotMem := h.get?_eq_none_iff.1 hnew
  rw [TextMap.get?_insert, List.getElem?_append, List.getElem?_singleton]
  by_cases hname : name' = name
  · subst hname
    rw [if_pos rfl]
    by_cases hlt : position < names.length
    · rw [if_pos hlt]
      refine iff_of_false (fun heq => ?_) fun heq => hnotMem (List.mem_of_getElem? heq)
      have hsame := Option.some.inj heq
      omega
    · rw [if_neg hlt, Option.some_inj, Option.ite_none_right_eq_some]
      constructor
      · intro heq
        exact ⟨by omega, rfl⟩
      · intro hlast
        omega
  · rw [if_neg hname, h name' position]
    by_cases hlt : position < names.length
    · rw [if_pos hlt]
    · rw [if_neg hlt, List.getElem?_eq_none (Nat.not_lt.1 hlt)]
      refine iff_of_false nofun fun heq => ?_
      obtain ⟨-, heq⟩ := Option.ite_none_right_eq_some.1 heq
      exact hname (Option.some.inj heq).symm

end Indexes

end Environment

open Environment

structure EnvironmentList where
  entries : List Entry
  index : TextMap Nat
  indexed : Indexes index (names entries)

namespace EnvironmentList

def empty : EnvironmentList := ⟨[], {}, fun _ _ => iff_of_false nofun nofun⟩

theorem distinct (env : EnvironmentList) : (names env.entries).Nodup := env.indexed.nodup

/-- The position of a name. -/
def index? (env : EnvironmentList) (name : String) : Option Nat := env.index.get? name

def get? (env : EnvironmentList) (name : String) : Option String :=
  (env.index? name).bind fun position => env.entries[position]?.map (·.value)

def size (env : EnvironmentList) : Nat := env.entries.length

def isEmpty (env : EnvironmentList) : Bool := env.entries.isEmpty

/-- Sets an entry and gives the value that it replaces. -/
def getThenSet? (env : EnvironmentList) (entry : Entry) : Option String × EnvironmentList :=
  match known : env.index? entry.name with
  | some position =>
    (env.entries[position]?.map (·.value), {
      entries := revalue position entry.value env.entries
      index := env.index
      indexed := by
        rw [names_revalue]
        exact env.indexed })
  | none =>
    (none, {
      entries := env.entries ++ [entry]
      index := env.index.insert entry.name env.size
      indexed := by
        have hsize : (names env.entries).length = env.size := List.length_map ..
        rw [names_append, ← hsize]
        exact env.indexed.concat known })

def set (env : EnvironmentList) (entry : Entry) : EnvironmentList := (env.getThenSet? entry).2

/-- Sets entries one after the other. -/
def setAll (env : EnvironmentList) (entries : List Entry) : EnvironmentList :=
  entries.foldl set env

end EnvironmentList

end ServerManifests
