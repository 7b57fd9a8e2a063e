/-!
Binary floating point with 64 bits. A finite number is its sign, its exponent
field and its fraction field, so two equal values are one value of the type;
the two zeros stay apart. Reading a decimal is exact: the quotient is compared
with the midpoint of its two neighbours and an exact tie goes to the even one.
-/
namespace ServerManifests.Decimal

/-- The bit above the fraction, which all numbers have but those nearest to zero. -/
abbrev hiddenBit : Nat := 0x10000000000000

structure Finite64 where
  negative : Bool
  exponent : Fin 2047
  fraction : Fin hiddenBit
  deriving DecidableEq, Repr

inductive Binary64 where
  | nan
  | infinite (negative : Bool)
  | finite (x : Finite64)
  deriving DecidableEq, Repr

namespace Finite64

def zero (negative : Bool) : Finite64 := ⟨negative, 0, 0⟩

/-- The integer whose multiple of `2 ^ scale` is the magnitude. -/
def significand (x : Finite64) : Nat :=
  if x.exponent.val = 0 then x.fraction.val else hiddenBit + x.fraction.val

def scale (x : Finite64) : Int := max (x.exponent.val : Int) 1 - 1075

/-- The smallest significand of a binade: the gap below it is half the gap above. -/
def atBinadeStart (x : Finite64) : Bool :=
  x.fraction.val == 0 && 1 < x.exponent.val

/-- The magnitude as a quotient of natural numbers. -/
def quotient (x : Finite64) : Nat × Nat :=
  if 0 ≤ x.scale then (x.significand <<< x.scale.toNat, 1)
  else (x.significand, 1 <<< (-x.scale).toNat)

end Finite64

/-- The quotient rounded to the nearest integer, a tie going to the even one. -/
def roundHalfEven (num den : Nat) : Nat :=
  let q := num / den
  let twice := 2 * (num % den)
  if twice < den then q
  else if den < twice then q + 1
  else if q % 2 = 0 then q else q + 1

namespace Binary64

/-- The number `significand * 2 ^ scale`, for a significand below twice the hidden
bit that is below the hidden bit only at the smallest scale. -/
def assemble (negative : Bool) (significand : Nat) (scale : Int) : Binary64 :=
  if significand < hiddenBit then
    .finite ⟨negative, 0, Fin.ofNat _ significand⟩
  else if 971 < scale then .infinite negative
  else .finite ⟨negative, Fin.ofNat _ (scale + 1075).toNat, Fin.ofNat _ (significand - hiddenBit)⟩

/-- The number nearest to `num / den`, both positive. -/
def ofQuotient (negative : Bool) (num den : Nat) : Binary64 :=
  let scaled (scale : Int) : Nat × Nat :=
    if 0 ≤ scale then (num, den <<< scale.toNat) else (num <<< (-scale).toNat, den)
  let rough := max ((num.log2 : Int) - den.log2 - 52) (-1074)
  let coarse := scaled rough
  let scale := if coarse.1 / coarse.2 < hiddenBit ∧ -1074 < rough then rough - 1 else rough
  let significand := roundHalfEven (scaled scale).1 (scaled scale).2
  if significand = 2 * hiddenBit then assemble negative hiddenBit (scale + 1)
  else assemble negative significand scale

/-- The number nearest to `digits * 10 ^ exponent`. Exponents far outside the
range are settled by the count of digits alone. -/
def ofDecimal (negative : Bool) (digits : Nat) (exponent : Int) : Binary64 :=
  if digits = 0 then .finite (.zero negative)
  else
    let magnitude : Int := exponent + (digits.log2 : Int) * 3 / 10
    if 320 < magnitude then .infinite negative
    else if magnitude < -400 - (digits.log2 : Int) / 30 then .finite (.zero negative)
    else if 0 ≤ exponent then ofQuotient negative (digits * Nat.pow 10 exponent.toNat) 1
    else ofQuotient negative digits (Nat.pow 10 (-exponent).toNat)

end Binary64

end ServerManifests.Decimal
