import ServerManifests.Codec.Error
import ServerManifests.Json.Basic

/-!
How the values of configuration fields are read, written and described. Reading
looks through tags except where a tag is meaningful; a text may be written as any
scalar and keeps the text of that scalar.
-/
namespace ServerManifests

open Decimal Yaml

/-- How values of a type are read from YAML and written as JSON, with a JSON
schema of the written form. -/
structure Codec (α : Type) where
  read : Value → Except ReadError α
  write : α → Json
  schema : Json

namespace Yaml.Value

mutual

def ofJson : Json → Value
  | .null => .null
  | .bool b => .bool b
  | .int n => .int n
  | .float x => .float (.finite x)
  | .text s => .text s
  | .list items => .list (ofJsonItems items)
  | .object members => .map (ofJsonMembers members)

def ofJsonItems : List Json → List Value
  | [] => []
  | item :: rest => ofJson item :: ofJsonItems rest

def ofJsonMembers : List (String × Json) → Entries
  | [] => []
  | (name, value) :: rest => (.text name, ofJson value) :: ofJsonMembers rest

end

mutual

/-- Whether a tag stands anywhere in a value. -/
def hasTag : Value → Bool
  | .tagged _ _ => true
  | .list items => hasTagInItems items
  | .map entries => hasTagInEntries entries
  | _ => false

def hasTagInItems : List Value → Bool
  | [] => false
  | item :: rest => item.hasTag || hasTagInItems rest

def hasTagInEntries : List (Value × Value) → Bool
  | [] => false
  | (key, value) :: rest => key.hasTag || value.hasTag || hasTagInEntries rest

end

end Yaml.Value

namespace Codec

variable {α : Type}

def readBool (value : Value) : Except ReadError Bool :=
  match value.untagged with
  | .bool b => .ok b
  | found => .error (.wrongType found "a boolean")

/-- An integer from `low` to `high`. -/
def readInt (low high : Int) (expected : String) (value : Value) : Except ReadError Int :=
  match value.untagged with
  | .int n => if low ≤ n ∧ n ≤ high then .ok n else .error (.outOfRange n expected)
  | found => .error (.wrongType found expected)

def readText (expected : String) (value : Value) : Except ReadError String :=
  match value.untagged with
  | .text s => .ok s
  | found => .error (.wrongType found expected)

/-- The entries of a mapping; a null has none. -/
def readEntries (expected : String) (value : Value) : Except ReadError Entries :=
  match value.untagged with
  | .map entries => .ok entries
  | .null => .ok []
  | found => .error (.wrongType found expected)

/-- The items of a list; a null has none. -/
def readItems (value : Value) : Except ReadError (List Value) :=
  match value.untagged with
  | .list items => .ok items
  | .null => .ok []
  | found => .error (.wrongType found "a sequence")

/-- A null without a tag leaves an option unset. -/
def readOption (read : Value → Except ReadError α) (value : Value) : Except ReadError (Option α) :=
  match value with
  | .null => .ok none
  | _ => (read value).map some

/-- Every digit of a number is written, and no `.0`. -/
def textNotation : Notation64 where
  positional := none
  keepsPoint := false
  plusExponent := false
  tie := .up
  infinity := "inf"
  notANumber := "NaN"

/-- The text of a scalar. -/
def readScalar (value : Value) : Except ReadError String :=
  match value with
  | .text s => .ok s
  | .bool b => .ok (if b then "true" else "false")
  | .int n => .ok (toString n)
  | .float x => .ok (textNotation.text x)
  | _ => .error (if value.hasTag then .taggedScalar else .noScalar)

/-- Reads entries by the order they stand in; of equal keys the last one counts. -/
def readMap (read : Value → Except ReadError α) (value : Value) :
    Except ReadError (TextMap α) := do
  let entries ← readEntries "a map" value
  entries.foldlM (fun (m : TextMap α) (key, value) => do
    let key ← readText "a string" key
    return m.insert key (← read value)) {}

mutual

def readSetting : Value → Except ReadError Setting
  | .null => .ok .null
  | .bool b => .ok (.bool b)
  | .int n => .ok (.int n)
  | .float (.finite x) => .ok (.float x)
  | .float _ => .ok .null
  | .text s => .ok (.text s)
  | .list items => (readSettingItems items).map .list
  | .map entries => (readSettingEntries "a string key" {} entries).map .object
  | .tagged tag value => .error (.wrongType (.tagged tag value) "any valid JSON value")

def readSettingItems : List Value → Except ReadError (List Setting)
  | [] => .ok []
  | item :: rest => do
    let item ← readSetting item
    return item :: (← readSettingItems rest)

/-- Reads the members of an object; the first name is expected as a key. -/
def readSettingEntries (expected : String) (members : TextMap Setting) :
    List (Value × Value) → Except ReadError (TextMap Setting)
  | [] => .ok members
  | (key, value) :: rest => do
    let name ← readText expected key
    readSettingEntries "a string" (members.insert name (← readSetting value)) rest

end

def schemaOfType (type : String) (more : List (String × Json)) : Json :=
  .object (("type", .text type) :: more)

def reference (name : String) : Json := .object [("$ref", .text ("#/definitions/" ++ name))]

def isReference : Json → Bool
  | .object [("$ref", _)] => true
  | _ => false

/-- The schema of a value that may also be null. -/
def nullable (schema : Json) : Json :=
  match schema with
  | .object (("type", type) :: more) => .object (("type", .list [type, .text "null"]) :: more)
  | _ => .object [("anyOf", .list [schema, schemaOfType "null" []])]

def bool : Codec Bool where
  read := readBool
  write := .bool
  schema := schemaOfType "boolean" []

def int32 : Codec Int32 where
  read value := (readInt Int32.minValue.toInt Int32.maxValue.toInt "i32" value).map Int32.ofInt
  write n := .int n.toInt
  schema := schemaOfType "integer" [("format", .text "int32")]

def uint32 : Codec UInt32 where
  read value := (readInt 0 (UInt32.size - 1) "u32" value).map fun n => UInt32.ofNat n.toNat
  write n := .int n.toNat
  schema := schemaOfType "integer" [("format", .text "uint32"), ("minimum", .float (.zero false))]

/-- A text that must be written as one. -/
def text : Codec String where
  read := readText "a string"
  write := .text
  schema := schemaOfType "string" []

/-- A text that may be written as any scalar. -/
def scalar : Codec String := { text with read := readScalar }

def option (codec : Codec α) : Codec (Option α) where
  read := readOption codec.read
  write
    | none => .null
    | some value => codec.write value
  schema := nullable codec.schema

def list (codec : Codec α) : Codec (List α) where
  read value := do (← readItems value).mapM codec.read
  write items := .list (items.map codec.write)
  schema := schemaOfType "array" [("items", codec.schema)]

/-- Texts by name; entries that are null are dropped. -/
def textMap : Codec (TextMap String) where
  read value := (readMap (readOption readScalar) value).map (·.filterMap id)
  write m := .object (m.entries.map fun e => (e.1, .text e.2))
  schema := schemaOfType "object" [("additionalProperties", schemaOfType "string" [])]

def settings : Codec (TextMap Setting) where
  read := readMap readSetting
  write m := .object (m.entries.map fun e => (e.1, e.2.json))
  schema := schemaOfType "object" [("additionalProperties", .bool true)]

end Codec

end ServerManifests
