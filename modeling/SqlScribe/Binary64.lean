/-!
# Double-precision numbers in exact arithmetic

A finite double is a sign, a whole significand and a power of two.  Rounding is
done on ratios of natural numbers, so every value below is decidable and no
floating-point hardware is involved.

The only operations the library needs are those that turn a decimal text into
a double: rounding a ratio, and scaling by a power of ten.
-/

namespace SqlScribe

/-- The finite double `(-1) ^ negative * significand * 2 ^ exponent`. -/
structure Binary64 where
  negative : Bool
  significand : Nat
  exponent : Int
deriving DecidableEq, Repr, Inhabited

namespace Binary64

/-- The exponent of the smallest positive double, shared by all subnormal numbers. -/
def leastExponent : Int := -1074

/-- The exponent of the largest finite double. -/
def greatestExponent : Int := 971

/-- The smallest significand of a normal number, `2 ^ 52`. -/
def leastNormalSignificand : Nat := 0x10000000000000

/-- Zero, with a sign. -/
def zero (negative : Bool) : Binary64 := ⟨negative, 0, leastExponent⟩

def isZero (x : Binary64) : Bool := x.significand == 0

/-- The same magnitude with the other sign. -/
def negate (x : Binary64) : Binary64 := { x with negative := !x.negative }

/-- The quotient rounded to the nearest whole number, a half going to the even neighbour. -/
def roundedQuotient (numerator denominator : Nat) : Nat :=
  let quotient := numerator / denominator
  let twiceRest := 2 * (numerator % denominator)
  if twiceRest < denominator then quotient
  else if denominator < twiceRest then quotient + 1
  else quotient + quotient % 2

/-- The `k` with `2 ^ k ≤ numerator / denominator < 2 ^ (k + 1)`, for a positive ratio. -/
def binaryOrder (numerator denominator : Nat) : Int :=
  let estimate : Int := numerator.log2 - denominator.log2
  if denominator * Nat.pow 2 estimate.toNat ≤ numerator * Nat.pow 2 (-estimate).toNat then estimate
  else estimate - 1

/--
The double nearest to a ratio, a half going to the even significand; `none`
when the magnitude rounds past the largest finite double.
-/
def ofRatio? (negative : Bool) (numerator denominator : Nat) : Option Binary64 :=
  if numerator = 0 then some (zero negative)
  else
    let exponent := max leastExponent (binaryOrder numerator denominator - 52)
    let significand :=
      roundedQuotient (numerator * Nat.pow 2 (-exponent).toNat)
        (denominator * Nat.pow 2 exponent.toNat)
    let rounded : Binary64 :=
      if significand = 2 * leastNormalSignificand then
        ⟨negative, leastNormalSignificand, exponent + 1⟩
      else ⟨negative, significand, exponent⟩
    if rounded.exponent ≤ greatestExponent then some rounded else none

/-- The double nearest to a natural number. -/
def ofNat? (n : Nat) : Option Binary64 := ofRatio? false n 1

/-- The magnitude as a numerator over a power of two. -/
def numerator (x : Binary64) : Nat := x.significand * Nat.pow 2 x.exponent.toNat

/-- The power of two below `numerator`. -/
def denominator (x : Binary64) : Nat := Nat.pow 2 (-x.exponent).toNat

/-- The rounded product, `none` past the largest double. -/
def mul? (x y : Binary64) : Option Binary64 :=
  ofRatio? (x.negative != y.negative) (x.numerator * y.numerator) (x.denominator * y.denominator)

/-- The rounded quotient by a nonzero double, `none` past the largest double. -/
def div? (x y : Binary64) : Option Binary64 :=
  ofRatio? (x.negative != y.negative) (x.numerator * y.denominator) (x.denominator * y.numerator)

/-- The largest power of ten that is a finite double. -/
def greatestPowerOfTen : Nat := 308

/-- The double nearest to `10 ^ k`. -/
def powerOfTen? (k : Nat) : Option Binary64 := ofNat? (Nat.pow 10 k)

/--
Divides by `10 ^ k`, rounding after each division; powers past the largest
representable one are divided out in steps, until nothing is left of the value.
-/
def scaleDown? (x : Binary64) (k : Nat) : Option Binary64 :=
  if greatestPowerOfTen < k then
    if x.isZero then some x
    else do
      let smaller ← x.div? (← powerOfTen? greatestPowerOfTen)
      scaleDown? smaller (k - greatestPowerOfTen)
  else do
    x.div? (← powerOfTen? k)
termination_by k
decreasing_by simp only [greatestPowerOfTen] at *; omega

/-- Multiplies by `10 ^ k` with one rounding; `none` past the largest double. -/
def scaleUp? (x : Binary64) (k : Nat) : Option Binary64 :=
  if greatestPowerOfTen < k then
    if x.isZero then some x else none
  else do
    x.mul? (← powerOfTen? k)

/--
Reads the decimal `digits * 10 ^ exponent`: the digits are rounded to a double
first, and that double is scaled by the power of ten.
-/
def ofDecimal? (digits : Nat) (exponent : Int) : Option Binary64 := do
  let whole ← ofNat? digits
  match exponent with
  | .ofNat k => whole.scaleUp? k
  | .negSucc k => whole.scaleDown? (k + 1)

/-- Magnitudes from this bound on round past the largest double, `2 ^ 1024 - 2 ^ 970`. -/
def overflowBound : Nat := Nat.pow 2 1024 - Nat.pow 2 970

/--
Whether the decimal `digits * 10 ^ exponent` rounds to a finite double.  Powers
of ten beyond the magnitudes in question decide nothing, so they are not formed.
-/
def inRange (digits : Nat) : (exponent : Int) → Bool
  | .ofNat k =>
      digits = 0 || k ≤ greatestPowerOfTen && digits * Nat.pow 10 k < overflowBound
  | .negSucc k => digits < overflowBound * Nat.pow 10 (min (k + 1) digits.log2)

end Binary64

end SqlScribe
