import ServerManifests.Decimal.Notation

/-!
Values of YAML documents. A mapping keeps the order of its entries. Its keys are
compared by their signatures, which tell apart every two values of different
type or content but not the two zeros nor two orders of one mapping.
-/
namespace ServerManifests.Yaml

open Decimal

inductive Value where
  | null
  | bool (value : Bool)
  | int (value : Int)
  | float (value : Binary64)
  | text (value : String)
  | list (items : List Value)
  | map (entries : List (Value × Value))
  | tagged (tag : String) (value : Value)
  deriving Inhabited

namespace Value

def floatSignature : Binary64 → List Nat
  | .nan => [0]
  | .infinite negative => [1, negative.toNat]
  | .finite x =>
    [2, if x.significand = 0 then 0 else x.negative.toNat, x.exponent.val, x.fraction.val]

def textSignature (s : String) : List Nat :=
  let codes := s.toList.map (·.toNat)
  codes.length :: codes

/-- Puts a signature in its place among ordered ones. -/
def placeSignature (s : List Nat) : List (List Nat) → List (List Nat)
  | [] => [s]
  | first :: rest => if first.lex s then first :: placeSignature s rest else s :: first :: rest

mutual

def signature : Value → List Nat
  | .null => [0]
  | .bool b => [1, b.toNat]
  | .int n => [2, if n < 0 then 1 else 0, n.natAbs]
  | .float x => 3 :: floatSignature x
  | .text s => 4 :: textSignature s
  | .list items => 5 :: items.length :: signatureItems items
  | .map entries => 6 :: entries.length :: (signatureEntries entries).flatten
  | .tagged tag value => 7 :: textSignature tag ++ value.signature

def signatureItems : List Value → List Nat
  | [] => []
  | item :: rest => item.signature ++ signatureItems rest

def signatureEntries : List (Value × Value) → List (List Nat)
  | [] => []
  | (key, value) :: rest =>
    placeSignature (key.signature ++ value.signature) (signatureEntries rest)

end

/-- Equality as values: the order of a mapping's entries does not matter. -/
def agrees (a b : Value) : Bool := a.signature == b.signature

/-- The value under any tags. -/
def untagged : Value → Value
  | .tagged _ value => value.untagged
  | value => value

def isNull (value : Value) : Bool :=
  match value.untagged with
  | .null => true
  | _ => false

/-- Doubles from 1e-5 up to 1e16 are positional, with at least one decimal. -/
def numberNotation : Notation64 where
  positional := some (-5, 15)
  keepsPoint := true
  plusExponent := false
  tie := .toEven
  infinity := ".inf"
  notANumber := ".nan"

end Value

/-- The entries of a mapping, in order. -/
abbrev Entries := List (Value × Value)

namespace Entries

def find? (es : Entries) (key : Value) : Option Value :=
  (List.find? (fun e => e.1.agrees key) es).map (·.2)

/-- Gives the entry of `key` another value, at its place. -/
def replace (es : Entries) (key value : Value) : Entries :=
  es.map fun e => if e.1.agrees key then (e.1, value) else e

/-- Drops the entry of `key`; the last entry takes its place. -/
def remove (key : Value) : Entries → Entries
  | [] => []
  | e :: rest =>
    if e.1.agrees key then
      match rest.getLast? with
      | none => []
      | some last => last :: rest.dropLast
    else e :: remove key rest

/-- Sets `key`, after the present entries if it is a new one. -/
def insert (es : Entries) (key value : Value) : Entries :=
  match es.find? key with
  | some _ => es.replace key value
  | none => es ++ [(key, value)]

/-- Sets `key`, except that a null drops an entry that is there. -/
def assign (es : Entries) (key value : Value) : Entries :=
  match es.find? key with
  | some _ => if value.isNull then es.remove key else es.replace key value
  | none => es ++ [(key, value)]

end Entries

end ServerManifests.Yaml
