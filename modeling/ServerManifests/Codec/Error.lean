import ServerManifests.Text.Quoted
import ServerManifests.Yaml.Value

/-!
Why a value cannot be read as what a field holds.
-/
namespace ServerManifests

open Decimal Yaml

inductive ReadError where
  | wrongType (found : Value) (expected : String)
  | outOfRange (number : Int) (expected : String)
  | unknownName (name : String) (known : List String)
  | repeatedField (name : String)
  /-- A list, a mapping or a null for a text. -/
  | noScalar
  /-- A tagged value, or a collection that holds one, for a text. -/
  | taggedScalar

namespace ReadError

/-- Every digit is written; an integral number keeps a `.0`. -/
def numberNotation : Notation64 where
  positional := none
  keepsPoint := true
  plusExponent := false
  tie := .up
  infinity := "inf"
  notANumber := "NaN"

def ticked (s : String) : String := "`" ++ s ++ "`"

def describe : Value → String
  | .null => "unit value"
  | .bool b => "boolean " ++ ticked (if b then "true" else "false")
  | .int n => "integer " ++ ticked (toString n)
  | .float x => "floating point " ++ ticked (numberNotation.text x)
  | .text s => "string " ++ Text.quoteText s
  | .list _ => "sequence"
  | .map _ => "map"
  | .tagged _ _ => "enum"

def message : ReadError → String
  | .wrongType found expected => "invalid type: " ++ describe found ++ ", expected " ++ expected
  | .outOfRange number expected =>
    "invalid value: integer " ++ ticked (toString number) ++ ", expected " ++ expected
  | .unknownName name known =>
    "unknown variant " ++ ticked name ++ ", expected one of " ++ ", ".intercalate (known.map ticked)
  | .repeatedField name => "duplicate field " ++ ticked name
  | .noScalar => "data did not match any variant of untagged enum ScalarText"
  | .taggedScalar => "untagged and internally tagged enums do not support enum input"

end ReadError

end ServerManifests
