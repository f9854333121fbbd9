import SqlScribe.Text.Digit
import SqlScribe.Text.Split
import SqlScribe.Toml.Value

/-!
# Numbers

Whole numbers are written to the base ten, with a sign if need be, or without
one to the base sixteen, eight or two.  Decimals have a point, an exponent, or
both.  Single underscores may stand between digits, and a number to the base
ten begins with a zero only if that is its only digit before the point.
-/

namespace SqlScribe.Toml

/-- The values of one or more digits of a base, without the underscores between them. -/
def digits? (base : Nat) (text : List Char) : Option (List Nat) :=
  let groups := Text.splitAt '_' text
  if groups.any List.isEmpty then none else groups.flatten.mapM (Text.digitValue? base)

/-- The digits of a number to the base ten before its point. -/
def leadingDigits? (text : List Char) : Option (List Nat) := do
  let digits ← digits? 10 text
  if digits.head? = some 0 ∧ 1 < digits.length then none else some digits

/-- Whether a number is negative, and its text without a sign. -/
def unsigned : List Char → Bool × List Char
  | '-' :: rest => (true, rest)
  | '+' :: rest => (false, rest)
  | text => (false, text)

def withSign (negative : Bool) (magnitude : Nat) : Int :=
  if negative then -magnitude else magnitude

/-- A whole number. -/
def whole? (text : List Char) : Option Int :=
  match text with
  | '0' :: 'x' :: rest => (digits? 16 rest).map fun digits => Text.ofDigits 16 digits
  | '0' :: 'o' :: rest => (digits? 8 rest).map fun digits => Text.ofDigits 8 digits
  | '0' :: 'b' :: rest => (digits? 2 rest).map fun digits => Text.ofDigits 2 digits
  | _ =>
      let (negative, rest) := unsigned text
      (leadingDigits? rest).map fun digits => withSign negative (Text.ofDigits 10 digits)

/-- The digits after a point, none if there is no point; the text begins with the point. -/
def fractionDigits? : List Char → Option (List Nat)
  | [] => some []
  | _ :: rest => digits? 10 rest

/-- The value of an exponent, zero if there is no exponent; the text begins with its letter. -/
def exponent? : List Char → Option Int
  | [] => some 0
  | _ :: rest =>
      let (negative, rest) := unsigned rest
      (digits? 10 rest).map fun digits => withSign negative (Text.ofDigits 10 digits)

/-- The letters before an exponent. -/
def isExponentLetter (c : Char) : Bool := c == 'e' || c == 'E'

/-- A number with a point or an exponent. -/
def decimal? (text : List Char) : Option Decimal := do
  let (negative, rest) := unsigned text
  let mantissa := rest.takeWhile (!isExponentLetter ·)
  let power := rest.dropWhile (!isExponentLetter ·)
  let point := mantissa.dropWhile (· != '.')
  if point.isEmpty && power.isEmpty then none
  let whole ← leadingDigits? (mantissa.takeWhile (· != '.'))
  let fraction ← fractionDigits? point
  let exponent ← exponent? power
  some ⟨negative, Text.ofDigits 10 (whole ++ fraction), exponent - fraction.length⟩

/-- A number of any kind. -/
def number? (text : List Char) : Option Value :=
  let (negative, rest) := unsigned text
  if rest = ['i', 'n', 'f'] then some (.infinite negative)
  else if rest = ['n', 'a', 'n'] then some .notANumber
  else ((whole? text).map Value.integer).or ((decimal? text).map Value.decimal)

end SqlScribe.Toml
