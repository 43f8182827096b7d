import ExprLang.Number.Exact

/-!
# Shortest decimal digits

A float is written with the fewest significant digits that read back as the same float, and among
those with the digits nearest to it.  For one digit, two digits, and so on, the two neighbours of
the float on the decimal grid of that many digits are tested against the interval of numbers that
round to the float; seventeen digits are always enough.

All arithmetic is on natural numbers: numbers are counted in quarters of the last binary place,
and decimal and binary powers are multiplied out instead of divided by.
-/

namespace ExprLang
namespace Number

/-- A decimal number `digits · 10 ^ exponent`. -/
structure Decimal where
  digits : Nat
  exponent : Int
deriving DecidableEq, Repr

/-- The numbers that round to a float, in quarters of its last binary place. -/
structure Rounding where
  low : Nat
  centre : Nat
  high : Nat
  closed : Bool

/-- The interval around `mantissa · 2 ^ exponent`.  Just above a power of two the float below is
only half a place away.  A number halfway between two floats rounds to the even mantissa. -/
def rounding (mantissa : Nat) (exponent : Int) : Rounding where
  low := if mantissa = Nat.pow 2 52 ∧ -1074 < exponent then 4 * mantissa - 1 else 4 * mantissa - 2
  centre := 4 * mantissa
  high := 4 * mantissa + 2
  closed := mantissa % 2 = 0

/-- Factors that make decimal and binary places comparable: `n · 10 ^ place` compares with
`t · 2 ^ (exponent - 2)` as `n · decimal` does with `t · binary`. -/
structure Factors where
  decimal : Nat
  binary : Nat

/-- The factors for one decimal place. -/
def factors (place exponent : Int) : Factors where
  decimal := Nat.pow 10 place.toNat * Nat.pow 2 (2 - exponent).toNat
  binary := Nat.pow 2 (exponent - 2).toNat * Nat.pow 10 (-place).toNat

/-- Whether `n` grid steps lie in the interval. -/
def Rounding.holds (r : Rounding) (k : Factors) (n : Nat) : Bool :=
  if r.closed then
    r.low * k.binary ≤ n * k.decimal && n * k.decimal ≤ r.high * k.binary
  else
    r.low * k.binary < n * k.decimal && n * k.decimal < r.high * k.binary

/-- The neighbour on the grid of one decimal place that rounds to the float, the nearer one if
both do. -/
def Rounding.nearest? (r : Rounding) (k : Factors) : Option Nat :=
  let exact := r.centre * k.binary
  let below := exact / k.decimal
  let above := below + 1
  let belowGap := exact - below * k.decimal
  let aboveGap := above * k.decimal - exact
  match r.holds k below, r.holds k above with
  | true, true =>
      if belowGap < aboveGap then some below
      else if aboveGap < belowGap then some above
      else if below % 2 = 0 then some below else some above
  | true, false => some below
  | false, true => some above
  | false, false => none

/-- The decimal exponent `p` with `10 ^ (p - 1) ≤ mantissa · 2 ^ exponent < 10 ^ p`. -/
def magnitudeExponent (mantissa : Nat) (exponent : Int) : Int :=
  let num := mantissa * Nat.pow 2 exponent.toNat
  let den := Nat.pow 2 (-exponent).toNat
  let guess : Int := (Nat.toDigits 10 num).length - (Nat.toDigits 10 den).length
  if num * Nat.pow 10 (-guess).toNat < den * Nat.pow 10 guess.toNat then guess else guess + 1

/-- Tries `count` digits, then more, as long as `tries` lasts. -/
def shortestFrom (mantissa : Nat) (exponent top : Int) : Nat → Nat → Decimal
  | 0, count =>
      let place := top - count
      let k := factors place exponent
      ⟨4 * mantissa * k.binary / k.decimal, place⟩
  | tries + 1, count =>
      let place := top - count
      match (rounding mantissa exponent).nearest? (factors place exponent) with
      | some n => ⟨n, place⟩
      | none => shortestFrom mantissa exponent top tries (count + 1)

/-- The shortest decimal number that rounds to a positive float. -/
def shortest (mantissa : Nat) (exponent : Int) : Decimal :=
  shortestFrom mantissa exponent (magnitudeExponent mantissa exponent) 17 1

end Number
end ExprLang
