import ServerManifests.Decimal.Notation
import ServerManifests.TextMap

/-!
JSON values. Numbers are integers of any size and finite doubles. A setting is a
JSON value whose objects have their members in the order of their names, each
name once, so equal settings are equal values.
-/
namespace ServerManifests

open Decimal

inductive Json where
  | null
  | bool (value : Bool)
  | int (value : Int)
  | float (value : Finite64)
  | text (value : String)
  | list (items : List Json)
  | object (members : List (String × Json))
  deriving Inhabited

namespace Json

mutual

def Ordered : Json → Prop
  | .list items => OrderedItems items
  | .object members => members.Pairwise (fun a b => a.1 < b.1) ∧ OrderedMembers members
  | _ => True

def OrderedItems : List Json → Prop
  | [] => True
  | item :: rest => item.Ordered ∧ OrderedItems rest

def OrderedMembers : List (String × Json) → Prop
  | [] => True
  | (_, value) :: rest => value.Ordered ∧ OrderedMembers rest

end

theorem orderedItems_iff (items : List Json) :
    OrderedItems items ↔ ∀ item ∈ items, item.Ordered := by
  induction items with
  | nil => simp [OrderedItems]
  | cons item rest ih => simp [OrderedItems, ih]

theorem orderedMembers_iff (members : List (String × Json)) :
    OrderedMembers members ↔ ∀ member ∈ members, member.2.Ordered := by
  induction members with
  | nil => simp [OrderedMembers]
  | cons member rest ih => simp [OrderedMembers, ih]

/-- Doubles from 1e-5 up to 1e16 are positional, with at least one decimal; a
positive exponent has a plus sign. -/
def numberNotation : Notation64 where
  positional := some (-5, 15)
  keepsPoint := true
  plusExponent := true
  tie := .toEven
  infinity := "null"
  notANumber := "null"

def floatText (x : Finite64) : String := String.ofList (numberNotation.finiteText x)

end Json

structure Setting where
  json : Json
  ordered : json.Ordered

namespace Setting

def null : Setting := ⟨.null, trivial⟩
def bool (b : Bool) : Setting := ⟨.bool b, trivial⟩
def int (n : Int) : Setting := ⟨.int n, trivial⟩
def float (x : Finite64) : Setting := ⟨.float x, trivial⟩
def text (s : String) : Setting := ⟨.text s, trivial⟩

def list (items : List Setting) : Setting where
  json := .list (items.map (·.json))
  ordered := by
    refine (Json.orderedItems_iff _).2 fun item h => ?_
    obtain ⟨setting, _, rfl⟩ := List.mem_map.1 h
    exact setting.ordered

def object (members : TextMap Setting) : Setting where
  json := .object (members.entries.map fun m => (m.1, m.2.json))
  ordered := by
    refine ⟨List.pairwise_map.2 members.ordered, (Json.orderedMembers_iff _).2 fun member h => ?_⟩
    obtain ⟨entry, _, rfl⟩ := List.mem_map.1 h
    exact entry.2.ordered

end Setting

end ServerManifests
