import SqlScribe.Binary64
import SqlScribe.Entries

/-!
# What a settings file says

Settings files are written in TOML.  A value is a text, a number, a truth value,
a moment, an array or a table.

Two things are kept that a reader of values does not see.  A table remembers
how it was opened, because that decides what may be written into it later; and
numbers are kept as they were written, because a file may hold numbers that
nothing can be made of.  `Value.fits` says that every number in a value can be
used.
-/

namespace SqlScribe.Toml

/-- Why a text is not a settings file. -/
inductive Fault where
  | loneReturn
  | controlCharacter
  | badEscape
  | unclosedString
  | badValue
  | badKey
  | keyTooLong
  | equalsMissing
  | badHeader
  | trailingCharacters
  | unclosedArray
  | unclosedTable
  | nestedTooDeep
  | repeatedKey (name : String)
  | notExtensible (name : String)
deriving DecidableEq, Repr

def Fault.message : Fault → String
  | .loneReturn => "carriage return without a newline"
  | .controlCharacter => "invalid control character"
  | .badEscape => "invalid escape sequence"
  | .unclosedString => "unclosed string"
  | .badValue => "invalid value"
  | .badKey => "invalid key"
  | .keyTooLong => "key with too many names"
  | .equalsMissing => "key with no value"
  | .badHeader => "invalid table header"
  | .trailingCharacters => "unexpected characters after a value"
  | .unclosedArray => "unclosed array"
  | .unclosedTable => "unclosed inline table"
  | .nestedTooDeep => "arrays and tables are nested too deep"
  | .repeatedKey name => "duplicate key " ++ name
  | .notExtensible name => "cannot add to " ++ name

/-- A day of the calendar. -/
structure Date where
  year : Nat
  month : Nat
  day : Nat
deriving DecidableEq, Repr, Inhabited

/-- A time of the day; the part of a second is given by its decimal digits. -/
structure Time where
  hour : Nat
  minute : Nat
  second : Nat
  fraction : List Nat
deriving DecidableEq, Repr, Inhabited

/-- How many minutes a clock is ahead of universal time. -/
abbrev Offset := Int

/-- A day, a time, or both, and then perhaps the offset of the clock that it was read from. -/
inductive Moment where
  | date (date : Date)
  | time (time : Time)
  | dateTime (date : Date) (time : Time) (offset : Option Offset)
deriving DecidableEq, Repr, Inhabited

/-- A number with a point or an exponent, `(-1) ^ negative * digits * 10 ^ exponent`. -/
structure Decimal where
  negative : Bool
  digits : Nat
  exponent : Int
deriving DecidableEq, Repr, Inhabited

/-- Whether a decimal rounds to a finite double. -/
def Decimal.fits (decimal : Decimal) : Bool :=
  Binary64.inRange decimal.digits decimal.exponent

/-- How a table was opened. -/
inductive Opening where
  /-- It has a header of its own, or it is the file itself. -/
  | header
  /-- The header of another table leads through it. -/
  | passage
  /-- A key leads through it. -/
  | dotted
  /-- It is written as a value. -/
  | inline
deriving DecidableEq, Repr, Inhabited

/-- A value. -/
inductive Value where
  | string (text : String)
  | integer (value : Int)
  | decimal (value : Decimal)
  | infinite (negative : Bool)
  | notANumber
  | boolean (value : Bool)
  | moment (value : Moment)
  | array (items : List Value)
  /-- An array of tables, each with a header; there is always a last one. -/
  | tables (before : List (List (String × Value))) (last : List (String × Value))
  | table (opening : Opening) (members : List (String × Value))
deriving Repr, Inhabited

/-- The members of a table. -/
abbrev Members := Entries Value

/-- Whole numbers lie below this bound, `2 ^ 128`. -/
def wholeLimit : Nat := 0x100000000000000000000000000000000

/-- Whole numbers are not less than the negative of this bound, `2 ^ 127`. -/
def negativeLimit : Nat := 0x80000000000000000000000000000000

mutual

/-- Whether every number in a value can be used. -/
def Value.fits : Value → Bool
  | .integer value => -negativeLimit ≤ value && value < wholeLimit
  | .decimal value => value.fits
  | .array items => itemsFit items
  | .tables before last => tablesFit before && membersFit last
  | .table _ members => membersFit members
  | .string _ | .infinite _ | .notANumber | .boolean _ | .moment _ => true

def itemsFit : List Value → Bool
  | [] => true
  | item :: rest => item.fits && itemsFit rest

def membersFit : List (String × Value) → Bool
  | [] => true
  | (_, value) :: rest => value.fits && membersFit rest

def tablesFit : List (List (String × Value)) → Bool
  | [] => true
  | table :: rest => membersFit table && tablesFit rest

end

end SqlScribe.Toml
