import ServerManifests.Yaml.Document

/-!
Override expressions `path=value`. A path is keys with dots between them; a dot after a
backslash belongs to the key, and any other backslash stands for itself. The value is a
null, a boolean or a number where it reads as one, and a number only if it prints back as it
was typed. The keys of the path are followed from the root, and missing mappings are made.
-/
namespace ServerManifests.Values

open Yaml

/-- Puts a character in front of the first key. -/
def prepend (c : Char) : List (List Char) → List (List Char)
  | [] => [[c]]
  | key :: rest => (c :: key) :: rest

def splitPath : List Char → List (List Char)
  | [] => [[]]
  | '\\' :: '.' :: rest => prepend '.' (splitPath rest)
  | '.' :: rest => [] :: splitPath rest
  | c :: rest => prepend c (splitPath rest)

def escapeDots : List Char → List Char
  | [] => []
  | '.' :: rest => '\\' :: '.' :: escapeDots rest
  | c :: rest => c :: escapeDots rest

def joinPath : List (List Char) → List Char
  | [] => []
  | [key] => escapeDots key
  | key :: rest => escapeDots key ++ '.' :: joinPath rest

theorem splitPath_ne_nil (path : List Char) : splitPath path ≠ [] := by
  fun_cases splitPath path <;> simp [prepend] <;> split <;> simp

/-- The keys of a path. -/
def pathKeys (path : String) : List String := (splitPath path.toList).map String.ofList

inductive OverrideError where
  | noAssignment
  | emptyKey
  | crossesValue
  deriving DecidableEq, Repr

def OverrideError.message : OverrideError → String
  | .noAssignment => "expected path=value"
  | .emptyKey => "empty path segment"
  | .crossesValue => "path crosses a non-mapping value"

/-- The value that an override's text stands for. -/
def scalarOf (raw : String) : Value :=
  if raw.isEmpty then .text ""
  else match Value.parse? raw with
    | some .null => .null
    | some (.bool b) => .bool b
    | some (.int n) => if toString n = raw then .int n else .text raw
    | some (.float x) => if Value.numberNotation.text x = raw then .float x else .text raw
    | _ => .text raw

/-- Changes the entries of a mapping, under any tags. -/
def withEntries? (change : Entries → Option Entries) : Value → Option Value
  | .map entries => (change entries).map .map
  | .tagged tag value => (withEntries? change value).map (.tagged tag)
  | _ => none

/-- Sets the last key of a path, where a null drops an entry that is there; none
if the path meets a value that is no mapping. -/
def assignAt? (value : Value) : (path : List String) → Value → Option Value
  | [], _ => none
  | [key], root => withEntries? (fun entries => some (entries.assign (.text key) value)) root
  | key :: rest, root =>
    withEntries? (fun entries =>
      let child := (entries.find? (.text key)).getD (.map [])
      (assignAt? value rest child).map (entries.insert (.text key) ·)) root

/-- An override expression split at its first equals sign. -/
def splitAssignment? (expression : String) : Option (String × String) :=
  let cs := expression.toList
  match cs.dropWhile (· ≠ '=') with
  | [] => none
  | _ :: raw => some (String.ofList (cs.takeWhile (· ≠ '=')), String.ofList raw)

def applyOverride (root : Value) (expression : String) : Except OverrideError Value :=
  match splitAssignment? expression with
  | none => .error .noAssignment
  | some (path, raw) =>
    let keys := pathKeys path
    if keys.any String.isEmpty then .error .emptyKey
    else match assignAt? (scalarOf raw) keys root with
      | none => .error .crossesValue
      | some root => .ok root

end ServerManifests.Values
