import SqlScribe.Text.Digit
import SqlScribe.Toml.Value

/-!
# Days and times

A day is written `year-month-day`, a time `hour:minute`, perhaps with seconds
and decimals of them, and both together with a letter `T` or a blank between
them, perhaps followed by an offset.  Only days of the calendar are read.
-/

namespace SqlScribe.Toml

def isLeapYear (year : Nat) : Bool :=
  year % 4 == 0 && (year % 100 != 0 || year % 400 == 0)

/-- How many days a month has; `0` if there is no such month. -/
def daysInMonth (year month : Nat) : Nat :=
  match month with
  | 1 | 3 | 5 | 7 | 8 | 10 | 12 => 31
  | 4 | 6 | 9 | 11 => 30
  | 2 => if isLeapYear year then 29 else 28
  | _ => 0

/-- Whether the calendar has the day. -/
def Date.isValid (date : Date) : Bool :=
  1 ≤ date.day && date.day ≤ daysInMonth date.year date.month

/-- The number that a fixed count of digits stands for, and the text after them. -/
def fixedNumber? (count : Nat) (text : List Char) : Option (Nat × List Char) := do
  let digits ← (text.take count).mapM (Text.digitValue? 10)
  if digits.length = count then some (Text.ofDigits 10 digits, text.drop count) else none

/-- The text after a mark. -/
def afterMark? (mark : Char) : List Char → Option (List Char)
  | [] => none
  | c :: rest => if c = mark then some rest else none

/-- The day at the beginning of a text, and the text after it. -/
def Date.ofText? (text : List Char) : Option (Date × List Char) := do
  let (year, rest) ← fixedNumber? 4 text
  let (month, rest) ← fixedNumber? 2 (← afterMark? '-' rest)
  let (day, rest) ← fixedNumber? 2 (← afterMark? '-' rest)
  let date : Date := ⟨year, month, day⟩
  if date.isValid then some (date, rest) else none

/-- The decimals of a second at the beginning of a text, and the text after them. -/
def fraction? : List Char → Option (List Nat × List Char)
  | '.' :: text => do
      let digits ← (text.takeWhile Char.isDigit).mapM (Text.digitValue? 10)
      if digits.isEmpty then none else some (digits, text.dropWhile Char.isDigit)
  | text => some ([], text)

/-- The seconds at the beginning of a text, which may be left out, and the text after them. -/
def seconds? : List Char → Option ((Nat × List Nat) × List Char)
  | ':' :: text => do
      let (second, rest) ← fixedNumber? 2 text
      let (fraction, rest) ← fraction? rest
      if second ≤ 60 then some ((second, fraction), rest) else none
  | text => some ((0, []), text)

/-- The hour and minute at the beginning of a text, and the text after them. -/
def clock? (text : List Char) : Option ((Nat × Nat) × List Char) := do
  let (hour, rest) ← fixedNumber? 2 text
  let (minute, rest) ← fixedNumber? 2 (← afterMark? ':' rest)
  if hour ≤ 23 ∧ minute ≤ 59 then some ((hour, minute), rest) else none

/-- The time at the beginning of a text, and the text after it. -/
def Time.ofText? (text : List Char) : Option (Time × List Char) := do
  let ((hour, minute), rest) ← clock? text
  let ((second, fraction), rest) ← seconds? rest
  some (⟨hour, minute, second, fraction⟩, rest)

/-- The offset that is the whole of a text. -/
def offset? : List Char → Option Offset
  | ['Z'] | ['z'] => some 0
  | sign :: text => do
      let ((hours, minutes), rest) ← clock? text
      let ahead : Int := hours * 60 + minutes
      if !rest.isEmpty then none
      else if sign = '+' then some ahead
      else if sign = '-' then some (-ahead)
      else none
  | [] => none

/-- Whether a character may stand between a day and a time. -/
def joinsTime (c : Char) : Bool := c == 'T' || c == 't' || c == ' '

/-- The day that is the whole of a text. -/
def Date.ofWholeText? (text : List Char) : Option Date :=
  match Date.ofText? text with
  | some (date, []) => some date
  | _ => none

/-- The moment that is the whole of a text. -/
def Moment.ofText? (text : List Char) : Option Moment :=
  match Date.ofText? text with
  | some (day, []) => some (.date day)
  | some (day, c :: rest) => do
      if !joinsTime c then none
      let (clock, rest) ← Time.ofText? rest
      if rest.isEmpty then some (.dateTime day clock none)
      else some (.dateTime day clock (some (← offset? rest)))
  | none =>
      match Time.ofText? text with
      | some (clock, []) => some (.time clock)
      | _ => none

end SqlScribe.Toml
