import ServerManifests.Codec.Basic

/-!
Codecs of enumerations and records. A record is read entry by entry on top of
its initial value: the first entry that cannot be read is the failure, and names
of no field are disregarded. It is written with its fields in their order.
-/
namespace ServerManifests

open Yaml

/-- An enumeration with the names its members are written by. -/
structure Choice (α : Type) where
  name : String
  description : String
  members : List α
  label : α → String

namespace Choice

variable {α : Type}

def labels (choice : Choice α) : List String := choice.members.map choice.label

def ofLabel (choice : Choice α) (label : String) : Except ReadError α :=
  match choice.members.find? (fun member => choice.label member = label) with
  | some member => .ok member
  | none => .error (.unknownName label choice.labels)

/-- A member is its label, or a tag of that name on a null. -/
def read (choice : Choice α) : Value → Except ReadError α
  | .text label => choice.ofLabel label
  | .tagged tag content => do
    let member ← choice.ofLabel tag
    match content with
    | .null => return member
    | _ => throw (.wrongType content "unit")
  | found => .error (.wrongType found "a Value::Tagged enum")

def codec (choice : Choice α) : Codec α where
  read := choice.read
  write member := .text (choice.label member)
  schema := Codec.reference choice.name

def definition (choice : Choice α) : Json :=
  Codec.schemaOfType "string"
    [("enum", .list (choice.labels.map .text)), ("description", .text choice.description)]

end Choice

structure Field (S : Type) where
  name : String
  description : String
  schema : Json
  /-- What reading a value does to the record. -/
  read : Value → Except ReadError (S → S)
  /-- The written value, unless the field is left out. -/
  write : S → Option Json

namespace Field

variable {S α : Type}

def required (name description : String) (codec : Codec α) (get : S → α) (set : α → S → S) :
    Field S where
  name
  description
  schema := codec.schema
  read value := (codec.read value).map set
  write record := some (codec.write (get record))

/-- A field that is left out when it is unset. -/
def optional (name description : String) (codec : Codec α) (get : S → Option α)
    (set : Option α → S → S) : Field S where
  name
  description
  schema := Codec.nullable codec.schema
  read value := (codec.option.read value).map set
  write record := (get record).map codec.write

/-- The schema of the field with its description and the value it has by default. -/
def property (field : Field S) (initial : S) : Json :=
  let described :=
    (field.write initial).toList.map (("default", ·)) ++
      [("description", .text field.description)]
  match field.schema with
  | .object members =>
    if Codec.isReference field.schema then
      .object (("allOf", .list [field.schema]) :: described)
    else .object (members ++ described)
  | schema => schema

end Field

structure Record (S : Type) where
  name : String
  description : String
  initial : S
  fields : List (Field S)

namespace Record

variable {S : Type}

/-- Reads entries on top of a record; no field may be given twice. -/
def readFields (fields : List (Field S)) (seen : List String) (record : S) :
    Entries → Except ReadError S
  | [] => .ok record
  | (key, value) :: rest => do
    let name ← Codec.readText "field identifier" key
    match fields.find? (·.name = name) with
    | none => readFields fields seen record rest
    | some field => do
      if seen.contains name then throw (.repeatedField name)
      let update ← field.read value
      readFields fields (name :: seen) (update record) rest

def read (r : Record S) (value : Value) : Except ReadError S := do
  readFields r.fields [] r.initial (← Codec.readEntries ("struct " ++ r.name) value)

def write (r : Record S) (record : S) : Json :=
  .object (r.fields.filterMap fun field => (field.write record).map (field.name, ·))

def codec (r : Record S) : Codec S where
  read := r.read
  write := r.write
  schema := Codec.reference r.name

def properties (r : Record S) : Json :=
  .object (r.fields.map fun field => (field.name, field.property r.initial))

def definition (r : Record S) : Json :=
  Codec.schemaOfType "object"
    [("description", .text r.description), ("properties", r.properties)]

end Record

end ServerManifests
