import ServerManifests.Yaml.Value

/-!
What a plain scalar stands for: null, a boolean, an integer, a double or, if
none of these, its own text. Integers that fit 128 bits but not 64 are refused.
-/
namespace ServerManifests.Yaml

open Decimal

namespace Scalar

def nullNames : List String := ["~", "null", "Null", "NULL"]

def boolean? (s : String) : Option Bool :=
  if ["true", "True", "TRUE"].contains s then some true
  else if ["false", "False", "FALSE"].contains s then some false
  else none

def digit? (radix : Nat) (c : Char) : Option Nat :=
  let n := c.toNat
  let value :=
    if 48 ≤ n ∧ n ≤ 57 then n - 48
    else if 97 ≤ n ∧ n ≤ 122 then n - 87
    else if 65 ≤ n ∧ n ≤ 90 then n - 55
    else radix
  if value < radix then some value else none

def natural? (radix : Nat) : List Char → Option Nat
  | [] => none
  | cs => cs.foldlM (fun n c => (digit? radix c).map (radix * n + ·)) 0

def isDigits (cs : List Char) : Bool := cs.all fun c => (digit? 10 c).isSome

/-- Digits after a leading zero, such as `007`: never a number. -/
def isZeroPadded : List Char → Bool
  | '0' :: c :: rest => isDigits (c :: rest)
  | _ => false

def unsigned (cs : List Char) : List Char :=
  match cs with
  | '+' :: rest => rest
  | '-' :: rest => rest
  | _ => cs

/-- An integer without its sign; `0x`, `0o` and `0b` change the radix. -/
def magnitude? (cs : List Char) : Option Nat :=
  match cs with
  | '0' :: 'x' :: rest => natural? 16 rest
  | '0' :: 'o' :: rest => natural? 8 rest
  | '0' :: 'b' :: rest => natural? 2 rest
  | _ => if isZeroPadded cs then none else natural? 10 cs

def integer? (cs : List Char) : Option Int :=
  match cs with
  | '+' :: rest => (magnitude? rest).map Int.ofNat
  | '-' :: rest => (magnitude? rest).map fun n => -Int.ofNat n
  | _ => (magnitude? cs).map Int.ofNat

def fitsWord (n : Int) : Bool := decide (Int64.minValue.toInt ≤ n ∧ n < UInt64.size)

def fitsDoubleWord (n : Int) : Bool :=
  decide (-0x80000000000000000000000000000000 ≤ n ∧ n < 0x100000000000000000000000000000000)

/-- The exponent after an `e`. -/
def exponent? : List Char → Option Int
  | '+' :: rest => (natural? 10 rest).map Int.ofNat
  | '-' :: rest => (natural? 10 rest).map fun n => -Int.ofNat n
  | rest => (natural? 10 rest).map Int.ofNat

/-- Digits with an optional point and exponent; one digit at least before the
exponent. -/
def decimal? (negative : Bool) (cs : List Char) : Option Binary64 :=
  let isDigit (c : Char) : Bool := (digit? 10 c).isSome
  let whole := cs.takeWhile isDigit
  let afterWhole := cs.dropWhile isDigit
  let (fraction, rest) := match afterWhole with
    | '.' :: after => (after.takeWhile isDigit, after.dropWhile isDigit)
    | _ => ([], afterWhole)
  let exponent := match rest with
    | [] => some 0
    | c :: after => if c = 'e' ∨ c = 'E' then exponent? after else none
  match natural? 10 (whole ++ fraction), exponent with
  | some digits, some e => some (.ofDecimal negative digits (e - fraction.length))
  | _, _ => none

def isFinite : Binary64 → Bool
  | .finite _ => true
  | _ => false

/-- Doubles have at most one sign; infinities are written `.inf`, and a number
beyond the range is none. -/
def float? (cs : List Char) : Option Binary64 :=
  let s := String.ofList cs
  let positive := match cs with
    | '+' :: rest => rest
    | _ => cs
  if [".inf", ".Inf", ".INF"].contains (String.ofList positive) then some (.infinite false)
  else if ["-.inf", "-.Inf", "-.INF"].contains s then some (.infinite true)
  else if [".nan", ".NaN", ".NAN"].contains s then some .nan
  else
    let number := match cs, positive with
      | '-' :: rest, _ => decimal? true rest
      | _, rest => decimal? false rest
    number.filter isFinite

end Scalar

namespace Value

open Scalar

/-- The value of a number whose integer reading is `n`, or `otherwise`. -/
def ofInteger? (n : Int) (otherwise : Value) : Option Value :=
  if fitsWord n then some (.int n)
  else if fitsDoubleWord n then none
  else some otherwise

/-- The value of a plain scalar; none for an integer that no value can hold. -/
def ofPlain? (s : String) : Option Value :=
  let cs := s.toList
  let noInteger : Value :=
    if isZeroPadded (unsigned cs) then .text s
    else match float? cs with
      | some x => .float x
      | none => .text s
  if cs.isEmpty || nullNames.contains s then some .null
  else match boolean? s with
    | some b => some (.bool b)
    | none =>
      match integer? cs with
      | some n => ofInteger? n noInteger
      | none => some noInteger

end Value

/-- Whether a plain scalar of this text reads back as the text. Digits with
leading zeros do, but other readers take them for numbers. -/
def Scalar.isPlainText (s : String) : Bool :=
  match Value.ofPlain? s with
  | some (.text _) => !isZeroPadded (unsigned s.toList)
  | _ => false

end ServerManifests.Yaml
