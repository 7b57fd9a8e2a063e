import ServerManifests.Decimal.Binary64

/-!
The fewest decimal digits that read back as a given number. On the grid of
`n`-digit decimals the two neighbours of the number are tried in exact
arithmetic; the first grid with a neighbour inside the rounding interval wins,
of two neighbours the nearer one, and a tie is for the format to settle.
-/
namespace ServerManifests.Decimal

inductive Tie where
  | toEven
  | up
  deriving DecidableEq, Repr

/-- The magnitude `digits * 10 ^ exponent`. -/
structure Digits where
  digits : Nat
  exponent : Int
  deriving DecidableEq, Repr

namespace Shortest

/-- Lower end, value and upper end of the magnitudes that round to `x`, as
multiples of a quarter of its unit in the last place. -/
def interval (x : Finite64) : Nat × Nat × Nat :=
  let m := x.significand
  (4 * m - (if x.atBinadeStart then 1 else 2), 4 * m, 4 * m + 2)

/-- Whether `10 ^ power` is at most `num / den`. -/
def powerLe (power : Int) (num den : Nat) : Bool :=
  if 0 ≤ power then decide (Nat.pow 10 power.toNat * den ≤ num)
  else decide (den ≤ num * Nat.pow 10 (-power).toNat)

/-- The position of the leading digit of `num / den`, found among three
candidates above a bound that binary logarithms give. -/
def leadingPower (num den : Nat) : Int :=
  let low := (((num.log2 : Int) - den.log2 - 1) * 30103).fdiv 100000 - 1
  if powerLe (low + 3) num den then low + 3
  else if powerLe (low + 2) num den then low + 2
  else if powerLe (low + 1) num den then low + 1
  else low

/-- Tries the grid `10 ^ power`. The ends of the interval count when the
significand is even, since a tie then reads back as `x`. -/
def onGrid? (tie : Tie) (x : Finite64) (power : Int) : Option Digits :=
  let (low, value, high) := interval x
  let quarter := x.scale - 2
  let (num, den) : Nat × Nat :=
    (Nat.pow 10 (-power).toNat <<< quarter.toNat, Nat.pow 10 power.toNat <<< (-quarter).toNat)
  let below := value * num / den
  let inside (d : Nat) : Bool :=
    if x.significand % 2 = 0 then decide (low * num ≤ d * den ∧ d * den ≤ high * num)
    else decide (low * num < d * den ∧ d * den < high * num)
  let gapBelow := value * num - below * den
  let gapAbove := (below + 1) * den - value * num
  let nearer :=
    if gapBelow < gapAbove then below
    else if gapAbove < gapBelow then below + 1
    else match tie with
      | .up => below + 1
      | .toEven => if below % 2 = 0 then below else below + 1
  match inside below, inside (below + 1) with
  | true, true => some ⟨nearer, power⟩
  | true, false => some ⟨below, power⟩
  | false, true => some ⟨below + 1, power⟩
  | false, false => none

/-- Grids of at least `count` digits, at most `fuel` of them. -/
def search (tie : Tie) (x : Finite64) (leading : Int) : (fuel count : Nat) → Option Digits
  | 0, _ => none
  | fuel + 1, count =>
    (onGrid? tie x (leading + 1 - count)).or (search tie x leading fuel (count + 1))

end Shortest

/-- The shortest digits of the magnitude of `x`, without a trailing zero.
Seventeen digits always suffice. -/
def Finite64.shortest (tie : Tie) (x : Finite64) : Digits :=
  let (num, den) := x.quotient
  if num = 0 then ⟨0, 0⟩
  else
    match Shortest.search tie x (Shortest.leadingPower num den) 17 1 with
    | none => ⟨0, 0⟩
    | some d => if d.digits % 10 = 0 then ⟨d.digits / 10, d.exponent + 1⟩ else d

end ServerManifests.Decimal
