import SqlScribe.Binary64

/-!
# The shortest decimal of a double

Among the decimals that read back as a given double, this module finds one
with the fewest digits and, of those, the one nearest to the double.

A decimal with `n` digits lies on a grid of step `10 ^ p`.  If any point of the
grid lies in the interval of numbers that round to the double, then so does one
of the double's two neighbours on the grid; it is enough to look at those, for
one, two, … seventeen digits in turn.
-/

namespace SqlScribe.Binary64

/-- Significant digits, the first one not a zero, and the power of ten of the first digit. -/
structure Digits where
  digits : List Char
  order : Int
deriving DecidableEq, Repr, Inhabited

/--
Four times the significand, less the distance to the lower end of the interval
that rounds to `x`, in quarters of the last place.  Below a power of two the
doubles lie twice as close.
-/
def lowerEnd (x : Binary64) : Nat :=
  if x.significand = leastNormalSignificand ∧ leastExponent < x.exponent then
    4 * x.significand - 1
  else 4 * x.significand - 2

/-- The upper end of the interval that rounds to `x`, in quarters of the last place. -/
def upperEnd (x : Binary64) : Nat := 4 * x.significand + 2

/--
Whether `point * 10 ^ step` rounds to the magnitude of `x`; the ends of the
interval belong to even significands.
-/
def readsBack (x : Binary64) (step : Int) (point : Nat) : Bool :=
  let quarter := x.exponent - 2
  let value := point * Nat.pow 10 step.toNat * Nat.pow 2 (-quarter).toNat
  let unit := Nat.pow 2 quarter.toNat * Nat.pow 10 (-step).toNat
  let lower := x.lowerEnd * unit
  let upper := x.upperEnd * unit
  if x.significand % 2 = 0 then decide (lower ≤ value ∧ value ≤ upper)
  else decide (lower < value ∧ value < upper)

/-- The magnitude in steps of `10 ^ step`, as a ratio. -/
def inSteps (x : Binary64) (step : Int) : Nat × Nat :=
  (x.numerator * Nat.pow 10 (-step).toNat, x.denominator * Nat.pow 10 step.toNat)

/--
The grid point of step `10 ^ step` that reads back as `x`; the nearer one if
both neighbours do.
-/
def gridPoint? (x : Binary64) (step : Int) : Option Nat :=
  let (numerator, denominator) := x.inSteps step
  let below := numerator / denominator
  let above := below + 1
  match x.readsBack step below, x.readsBack step above with
  | true, true => some (roundedQuotient numerator denominator)
  | true, false => some below
  | false, true => some above
  | false, false => none

/-- How many decimal digits a number has. -/
def decimalLength (n : Nat) : Nat := (Nat.toDigits 10 n).length

/-- The `k` with `10 ^ k ≤ |x| < 10 ^ (k + 1)`, for `x` other than zero. -/
def decimalOrder (x : Binary64) : Int :=
  let estimate : Int := decimalLength x.numerator - decimalLength x.denominator
  if x.denominator * Nat.pow 10 estimate.toNat ≤ x.numerator * Nat.pow 10 (-estimate).toNat then
    estimate
  else estimate - 1

/-- The digits of `point * 10 ^ step` without trailing zeros. -/
def digitsOfPoint (point : Nat) (step : Int) : Digits :=
  let all := Nat.toDigits 10 point
  ⟨(all.reverse.dropWhile (· == '0')).reverse, step + all.length - 1⟩

/-- The shortest digits of a double other than zero. -/
def shortestDigits (x : Binary64) : Digits :=
  let order := x.decimalOrder
  let candidate (more : Nat) : Option Digits :=
    (x.gridPoint? (order - more)).map (digitsOfPoint · (order - more))
  ((List.range 17).findSome? candidate).getD ⟨['0'], 0⟩

end SqlScribe.Binary64
