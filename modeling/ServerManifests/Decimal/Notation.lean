import ServerManifests.Decimal.Shortest

/-!
Written forms of floating point numbers. A `Notation64` says which decimal
exponents are written positionally and how the rest looks; the digits are
always the shortest that read back.
-/
namespace ServerManifests.Decimal

structure Notation64 where
  /-- Decimal exponents of the leading digit that are written positionally;
  without bounds all are. -/
  positional : Option (Int × Int)
  /-- Whether an integral number keeps a `.0`. -/
  keepsPoint : Bool
  /-- Whether a positive exponent has a plus sign. -/
  plusExponent : Bool
  tie : Tie
  infinity : String
  notANumber : String
  deriving Repr

namespace Notation64

def digitChars (n : Nat) : List Char := Nat.toDigits 10 n

def zeros (n : Nat) : List Char := List.replicate n '0'

def positionalText (form : Notation64) (d : Digits) : List Char :=
  let digits := digitChars d.digits
  let point := (digits.length : Int) + d.exponent
  if 0 ≤ d.exponent then
    digits ++ zeros d.exponent.toNat ++ (if form.keepsPoint then ['.', '0'] else [])
  else if 0 < point then
    digits.take point.toNat ++ '.' :: digits.drop point.toNat
  else '0' :: '.' :: (zeros (-point).toNat ++ digits)

def exponentText (form : Notation64) (d : Digits) : List Char :=
  let digits := digitChars d.digits
  let exponent := (digits.length : Int) + d.exponent - 1
  let mantissa := match digits with
    | lead :: next :: rest => lead :: '.' :: next :: rest
    | short => short
  mantissa ++ 'e' ::
    ((if exponent < 0 then ['-'] else if form.plusExponent then ['+'] else [])
      ++ digitChars exponent.natAbs)

def finiteText (form : Notation64) (x : Finite64) : List Char :=
  let d := x.shortest form.tie
  let leading := (digitChars d.digits).length + d.exponent - 1
  let isPositional := match form.positional with
    | none => true
    | some (low, high) => decide (low ≤ leading ∧ leading ≤ high)
  (if x.negative then ['-'] else []) ++
    (if isPositional then form.positionalText d else form.exponentText d)

def text (form : Notation64) : Binary64 → String
  | .nan => form.notANumber
  | .infinite negative => if negative then "-" ++ form.infinity else form.infinity
  | .finite x => String.ofList (form.finiteText x)

end Notation64

end ServerManifests.Decimal
