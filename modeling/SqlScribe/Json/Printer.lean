import SqlScribe.Binary64.Shortest
import SqlScribe.Json

/-!
# The compact text of a JSON value

No blanks, members in order, whole numbers plain, and doubles with the fewest
digits that read back.  Only quotes, backslashes and characters below U+0020
are escaped in strings.
-/

namespace SqlScribe

/-- How a double is written: positionally from `leastPositional` up to below `positionalLimit`. -/
structure RealFormat where
  leastPositional : Int
  positionalLimit : Int

namespace RealFormat

/-- The digits around a point, with at least one digit on each side. -/
def positional (digits : List Char) (order : Int) : List Char :=
  match order with
  | .ofNat places =>
      let whole := digits.take (places + 1)
      let fraction := digits.drop (places + 1)
      whole ++ List.replicate (places + 1 - whole.length) '0' ++ '.' ::
        (if fraction.isEmpty then ['0'] else fraction)
  | .negSucc zeros => '0' :: '.' :: List.replicate zeros '0' ++ digits

/-- One digit, the others after a point if there are any, and a signed exponent. -/
def scientific (digits : List Char) (order : Int) : List Char :=
  let mantissa :=
    match digits with
    | first :: second :: rest => first :: '.' :: second :: rest
    | few => few
  let sign := if order < 0 then '-' else '+'
  mantissa ++ 'e' :: sign :: Nat.toDigits 10 order.natAbs

/-- The text of a double. -/
def text (format : RealFormat) (x : Binary64) : List Char :=
  let magnitude :=
    if x.isZero then ['0', '.', '0']
    else
      let shortest := x.shortestDigits
      if format.leastPositional ≤ shortest.order ∧ shortest.order < format.positionalLimit then
        positional shortest.digits shortest.order
      else scientific shortest.digits shortest.order
  if x.negative then '-' :: magnitude else magnitude

end RealFormat

/-- Doubles from `0.00001` up to below `10 ^ 16` are written positionally. -/
def JsonNumber.realFormat : RealFormat := ⟨-5, 16⟩

/-- The decimal text of a whole number. -/
def decimalText (value : Int) : List Char :=
  match value with
  | .ofNat n => Nat.toDigits 10 n
  | .negSucc n => '-' :: Nat.toDigits 10 (n + 1)

/-- The text of a number. -/
def JsonNumber.text : JsonNumber → List Char
  | .integer value => decimalText value
  | .real value => JsonNumber.realFormat.text value

namespace Json

/-- The lower-case hexadecimal digit of a number below sixteen. -/
def hexDigit (n : Nat) : Char := "0123456789abcdef".toList.getD n '0'

/-- A character inside a JSON string. -/
def escapedChar (c : Char) : List Char :=
  match c with
  | '"' => ['\\', '"']
  | '\\' => ['\\', '\\']
  | '\x08' => ['\\', 'b']
  | '\t' => ['\\', 't']
  | '\n' => ['\\', 'n']
  | '\x0c' => ['\\', 'f']
  | '\r' => ['\\', 'r']
  | c =>
      if c.toNat < 0x20 then
        ['\\', 'u', '0', '0', hexDigit (c.toNat / 16), hexDigit (c.toNat % 16)]
      else [c]

/-- A JSON string between its quotes. -/
def quotedText (text : String) : List Char :=
  '"' :: text.toList.flatMap escapedChar ++ ['"']

def boolText (value : Bool) : List Char :=
  if value then "true".toList else "false".toList

mutual

/-- The compact text of a value. -/
def text : Json → List Char
  | .null => "null".toList
  | .bool value => boolText value
  | .number value => value.text
  | .string value => quotedText value
  | .array items => '[' :: itemsText items ++ [']']
  | .object members => '{' :: membersText members ++ ['}']

/-- The items of an array, separated by commas. -/
def itemsText : List Json → List Char
  | [] => []
  | [item] => item.text
  | item :: next :: rest => item.text ++ ',' :: itemsText (next :: rest)

/-- The members of an object, separated by commas. -/
def membersText : List (String × Json) → List Char
  | [] => []
  | [(name, value)] => quotedText name ++ ':' :: value.text
  | (name, value) :: next :: rest =>
      quotedText name ++ ':' :: value.text ++ ',' :: membersText (next :: rest)

end

/-- The compact text of a value, as a string. -/
def render (value : Json) : String := String.ofList value.text

end Json

end SqlScribe
