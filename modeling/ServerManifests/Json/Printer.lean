import ServerManifests.Json.Basic

/-!
JSON text with one member or item a line, each level two spaces further in.
-/
namespace ServerManifests.Json

def escaped (c : Char) : List Char :=
  if c = '"' then ['\\', '"']
  else if c = '\\' then ['\\', '\\']
  else if c = '\n' then ['\\', 'n']
  else if c = '\r' then ['\\', 'r']
  else if c = '\t' then ['\\', 't']
  else if c = '\x08' then ['\\', 'b']
  else if c = '\x0c' then ['\\', 'f']
  else if c.toNat < 0x20 then
    ['\\', 'u', '0', '0', Nat.digitChar (c.toNat / 16), Nat.digitChar (c.toNat % 16)]
  else [c]

def quoted (s : String) : String :=
  String.ofList ('"' :: s.toList.flatMap escaped ++ ['"'])

def indentation (depth : Nat) : String := String.ofList (List.replicate (2 * depth) ' ')

/-- Encloses the written items of a list or an object at `depth`. -/
def enclose (opening closing : String) (depth : Nat) : List String → String
  | [] => opening ++ closing
  | items =>
    let line (item : String) := "\n" ++ indentation (depth + 1) ++ item
    opening ++ ",".intercalate (items.map line) ++ "\n" ++ indentation depth ++ closing

mutual

def printAt (depth : Nat) : Json → String
  | .null => "null"
  | .bool b => if b then "true" else "false"
  | .int n => toString n
  | .float x => floatText x
  | .text s => quoted s
  | .list items => enclose "[" "]" depth (printItems (depth + 1) items)
  | .object members => enclose "\x7b" "\x7d" depth (printMembers (depth + 1) members)

def printItems (depth : Nat) : List Json → List String
  | [] => []
  | item :: rest => item.printAt depth :: printItems depth rest

def printMembers (depth : Nat) : List (String × Json) → List String
  | [] => []
  | (name, value) :: rest =>
    (quoted name ++ ": " ++ value.printAt depth) :: printMembers depth rest

end

def print (json : Json) : String := json.printAt 0

end ServerManifests.Json
