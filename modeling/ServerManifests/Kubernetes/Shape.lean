import ServerManifests.Codec.Basic

/-!
Blocks of a pod description that are passed through. The shape of a block says
which fields it has; what does not fit is refused, unknown fields are dropped,
and the fields that remain stand in the order of their names. A field that must
be written is blank when it is missing.
-/
namespace ServerManifests.Kubernetes

open Yaml

inductive Shape where
  | text
  | bool
  | int32
  | int64
  | list (item : Shape)
  | map (value : Shape)
  /-- Fields in the order of their names, with whether they are always written. -/
  | object (name : String) (fields : List (String × Bool × Shape))

namespace Shape

mutual

def blank : Shape → Json
  | .text => .text ""
  | .bool => .bool false
  | .int32 => .int 0
  | .int64 => .int 0
  | .list _ => .list []
  | .map _ => .object []
  | .object _ fields => .object (blankFields fields)

def blankFields : List (String × Bool × Shape) → List (String × Json)
  | [] => []
  | (name, always, shape) :: rest =>
    if always then (name, blank shape) :: blankFields rest else blankFields rest

end

/-- The fields that were read, and blank ones where they must be written. -/
def arrange (read : List (String × Option Json)) :
    List (String × Bool × Shape) → List (String × Json)
  | [] => []
  | (name, always, shape) :: rest =>
    match (read.lookup name).join with
    | some json => (name, json) :: arrange read rest
    | none => if always then (name, shape.blank) :: arrange read rest else arrange read rest

mutual

def read : Shape → Value → Except ReadError Json
  | .text, value => (Codec.readText "a string" value).map .text
  | .bool, value => (Codec.readBool value).map .bool
  | .int32, value =>
    (Codec.readInt Int32.minValue.toInt Int32.maxValue.toInt "i32" value).map .int
  | .int64, value =>
    (Codec.readInt Int64.minValue.toInt Int64.maxValue.toInt "i64" value).map .int
  | .list item, value => do
    let items ← Codec.readItems value
    return .list (← items.mapM (read item))
  | .map content, value => do
    let entries ← Codec.readMap (read content) value
    return .object entries.entries
  | .object name fields, value => do
    let entries ← Codec.readEntries name value
    let found ← entries.foldlM (fun (found : List (String × Option Json)) (key, value) => do
      let name ← Codec.readText "field identifier" key
      match ← readField fields name value with
      | none => return found
      | some json => return (name, json) :: found) []
    return .object (arrange found fields)

/-- Reads the value of a field if there is one of that name; of several values
the last one counts. -/
def readField : List (String × Bool × Shape) → String → Value →
    Except ReadError (Option (Option Json))
  | [], _, _ => .ok none
  | (field, _, shape) :: rest, name, value =>
    if field = name then (Codec.readOption (read shape) value).map some
    else readField rest name value

end

def name : Shape → String
  | .object name _ => name
  | _ => ""

/-- The definitions of a schema name blocks by the group they belong to. -/
def codec (shape : Shape) : Codec Json where
  read := shape.read
  write json := json
  schema := Codec.reference ("io.k8s.api.core.v1." ++ shape.name)

end Shape

end ServerManifests.Kubernetes
