import SqlScribe.Json
import SqlScribe.Text.Digit

/-!
# Reading JSON text

The reader is a machine that takes one character at a time.  Its stack holds
the arrays and objects that are open, each with what has been read of it, and
its mode says what may come next.  A text is read by running the machine over
its characters, so reading ends on every text.

Objects keep all their members, also those whose name was read before.
-/

namespace SqlScribe

/-- Why a text is not JSON. -/
inductive JsonFault where
  | endInValue
  | endInString
  | endInArray
  | endInObject
  | expectedValue
  | expectedWord
  | expectedColon
  | expectedItemEnd
  | expectedMemberEnd
  | keyNotString
  | trailingComma
  | trailingCharacters
  | invalidNumber
  | numberOutOfRange
  | invalidEscape
  | controlCharacter
  | loneSurrogate
  | unpairedSurrogate
  | nestedTooDeep
deriving DecidableEq, Repr

/-- The words for a fault. -/
def JsonFault.message : JsonFault → String
  | .endInValue => "EOF while parsing a value"
  | .endInString => "EOF while parsing a string"
  | .endInArray => "EOF while parsing a list"
  | .endInObject => "EOF while parsing an object"
  | .expectedValue => "expected value"
  | .expectedWord => "expected ident"
  | .expectedColon => "expected `:`"
  | .expectedItemEnd => "expected `,` or `]`"
  | .expectedMemberEnd => "expected `,` or `\x7d`"
  | .keyNotString => "key must be a string"
  | .trailingComma => "trailing comma"
  | .trailingCharacters => "trailing characters"
  | .invalidNumber => "invalid number"
  | .numberOutOfRange => "number out of range"
  | .invalidEscape => "invalid escape"
  | .controlCharacter => "control character (\\u0000-\\u001F) found while parsing a string"
  | .loneSurrogate => "lone leading surrogate in hex escape"
  | .unpairedSurrogate => "unexpected end of hex escape"
  | .nestedTooDeep => "recursion limit exceeded"

namespace Json

/-! ## Numbers -/

def digitValue (c : Char) : Nat := c.toNat - '0'.toNat

/--
Appends digits to a whole number as long as it fits 64 bits; the second part
holds the digits from the first one that does not fit.
-/
def appendDigits (value : Nat) : List Char → Nat × List Char
  | [] => (value, [])
  | c :: rest =>
      let next := value * 10 + digitValue c
      if next < JsonNumber.unsignedLimit then appendDigits next rest else (value, c :: rest)

/-- The parts of a number's text: sign, digits before and after the point, and the exponent. -/
structure NumberText where
  negative : Bool
  whole : List Char
  fraction : Option (List Char)
  exponent : Option Int

/-- The exponent after its letter: an optional sign and at least one digit. -/
def readExponent (text : List Char) : Except JsonFault Int :=
  let (negative, digits) :=
    match text with
    | '-' :: rest => (true, rest)
    | '+' :: rest => (false, rest)
    | rest => (false, rest)
  if digits.isEmpty then throw .endInValue
  else if digits.all Char.isDigit then
    let value : Int := digits.foldl (fun n c => n * 10 + digitValue c) 0
    pure (if negative then -value else value)
  else throw .invalidNumber

/-- Cuts a number's text into its parts, refusing what the grammar of numbers does not allow. -/
def NumberText.read (text : List Char) : Except JsonFault NumberText := do
  let (negative, unsigned) :=
    match text with
    | '-' :: rest => (true, rest)
    | rest => (false, rest)
  let whole := unsigned.takeWhile Char.isDigit
  let afterWhole := unsigned.dropWhile Char.isDigit
  if whole.isEmpty then
    throw (if afterWhole.isEmpty then .endInValue else .invalidNumber)
  if whole.head? = some '0' ∧ 1 < whole.length then throw .invalidNumber
  let (fraction, afterFraction) :=
    match afterWhole with
    | '.' :: rest => (some (rest.takeWhile Char.isDigit), rest.dropWhile Char.isDigit)
    | rest => (none, rest)
  if fraction = some [] then
    throw (if afterFraction.isEmpty then .endInValue else .invalidNumber)
  match afterFraction with
  | [] => pure ⟨negative, whole, fraction, none⟩
  | letter :: rest =>
      if letter = 'e' ∨ letter = 'E' then
        pure ⟨negative, whole, fraction, some (← readExponent rest)⟩
      else throw .invalidNumber

/--
The value of a number's text.  A whole number that fits 64 bits, signed if it
is negative, stays whole; minus zero and all other numbers are doubles, read
from as many leading digits as fit 64 bits.
-/
def NumberText.value (text : NumberText) : Except JsonFault JsonNumber :=
  let (whole, unread) := appendDigits 0 text.whole
  let isWhole := text.fraction.isNone && text.exponent.isNone && unread.isEmpty
  if isWhole ∧ !text.negative then pure (.integer whole)
  else if isWhole ∧ whole ≠ 0 ∧ whole ≤ JsonNumber.signedLimit then pure (.integer (-whole))
  else
    let fraction := text.fraction.getD []
    let (digits, unreadFraction) := appendDigits whole fraction
    let readPlaces : Int := fraction.length - unreadFraction.length
    let exponent := text.exponent.getD 0 + unread.length - readPlaces
    match Binary64.ofDecimal? digits exponent with
    | some x => pure (.real (if text.negative then x.negate else x))
    | none => throw .numberOutOfRange

/-- Reads the text of a number. -/
def readNumber (text : List Char) : Except JsonFault JsonNumber := do
  (← NumberText.read text).value

/-! ## The machine -/

/-- The innermost open container around a value that is being read, with what precedes the value. -/
inductive Frame where
  | item (before : List Json)
  | member (before : List (String × Json)) (name : String)

/-- What a string being read is for. -/
inductive StringRole where
  | value
  | name (before : List (String × Json))

/-- What may come next; what has been read of an open part is held in reverse. -/
inductive Mode where
  | value
  | firstItem
  | nextItem (before : List Json)
  | firstName
  | nextName (before : List (String × Json))
  | colon (before : List (String × Json)) (name : String)
  | afterMember (before : List (String × Json))
  | afterItem (before : List Json)
  | string (role : StringRole) (read : List Char)
  | escape (role : StringRole) (read : List Char)
  | hex (role : StringRole) (read : List Char) (lead : Option Nat) (missing : Nat) (code : Nat)
  | pairSlash (role : StringRole) (read : List Char) (lead : Nat)
  | pairLetter (role : StringRole) (read : List Char) (lead : Nat)
  | number (read : List Char)
  | word (missing : List Char) (value : Json)
  | finished (value : Json)

/-- The reader between two characters. -/
structure Machine where
  stack : List Frame
  mode : Mode

namespace Machine

/-- How many containers may be open at once. -/
def depthLimit : Nat := 127

def start : Machine := ⟨[], .value⟩

/-- Hands a complete value to the container around it. -/
def deliver (stack : List Frame) (value : Json) : Machine :=
  match stack with
  | [] => ⟨[], .finished value⟩
  | .item before :: rest => ⟨rest, .afterItem (value :: before)⟩
  | .member before name :: rest => ⟨rest, .afterMember ((name, value) :: before)⟩

/-- Ends a string and hands it on. -/
def deliverString (stack : List Frame) (role : StringRole) (read : List Char) : Machine :=
  let text := String.ofList read.reverse
  match role with
  | .value => deliver stack (.string text)
  | .name before => ⟨stack, .colon before text⟩

/-- Blanks between the parts of a document. -/
def isGap (c : Char) : Bool := c == ' ' || c == '\n' || c == '\t' || c == '\r'

/-- The characters that a number's text may hold. -/
def isNumberPart (c : Char) : Bool :=
  c.isDigit || c == '-' || c == '+' || c == '.' || c == 'e' || c == 'E'

/-- The first character of a value. -/
def beginValue (stack : List Frame) (c : Char) : Except JsonFault Machine :=
  match c with
  | '"' => pure ⟨stack, .string .value []⟩
  | '[' =>
      if stack.length < depthLimit then pure ⟨stack, .firstItem⟩ else throw .nestedTooDeep
  | '\x7b' =>
      if stack.length < depthLimit then pure ⟨stack, .firstName⟩ else throw .nestedTooDeep
  | 't' => pure ⟨stack, .word ['r', 'u', 'e'] (.bool true)⟩
  | 'f' => pure ⟨stack, .word ['a', 'l', 's', 'e'] (.bool false)⟩
  | 'n' => pure ⟨stack, .word ['u', 'l', 'l'] .null⟩
  | c => if c == '-' || c.isDigit then pure ⟨stack, .number [c]⟩ else throw .expectedValue

/-- A character of a string. -/
def stringStep
    (stack : List Frame) (role : StringRole) (read : List Char) (c : Char) :
    Except JsonFault Machine :=
  match c with
  | '"' => pure (deliverString stack role read)
  | '\\' => pure ⟨stack, .escape role read⟩
  | c => if c.toNat < 0x20 then throw .controlCharacter else pure ⟨stack, .string role (c :: read)⟩

/-- The character after a backslash. -/
def escapeStep
    (stack : List Frame) (role : StringRole) (read : List Char) (c : Char) :
    Except JsonFault Machine :=
  let plain (meant : Char) : Except JsonFault Machine := pure ⟨stack, .string role (meant :: read)⟩
  match c with
  | '"' => plain '"'
  | '\\' => plain '\\'
  | '/' => plain '/'
  | 'b' => plain '\x08'
  | 'f' => plain '\x0c'
  | 'n' => plain '\n'
  | 'r' => plain '\r'
  | 't' => plain '\t'
  | 'u' => pure ⟨stack, .hex role read none 4 0⟩
  | _ => throw .invalidEscape

/-- Ends an escape of four hexadecimal digits; two of them make a character beyond U+FFFF. -/
def hexEnd
    (stack : List Frame) (role : StringRole) (read : List Char) (lead : Option Nat) (code : Nat) :
    Except JsonFault Machine :=
  let isTrail := 0xDC00 ≤ code ∧ code ≤ 0xDFFF
  match lead with
  | some high =>
      if isTrail then
        let full := 0x10000 + (high - 0xD800) * 0x400 + (code - 0xDC00)
        pure ⟨stack, .string role (Char.ofNat full :: read)⟩
      else throw .loneSurrogate
  | none =>
      if isTrail then throw .loneSurrogate
      else if 0xD800 ≤ code ∧ code ≤ 0xDBFF then pure ⟨stack, .pairSlash role read code⟩
      else pure ⟨stack, .string role (Char.ofNat code :: read)⟩

/-- A digit of a `\u` escape. -/
def hexStep
    (stack : List Frame) (role : StringRole) (read : List Char)
    (lead : Option Nat) (missing : Nat) (code : Nat) (c : Char) :
    Except JsonFault Machine :=
  match Text.hexValue? c with
  | none => throw .invalidEscape
  | some digit =>
      let value := code * 16 + digit
      if missing ≤ 1 then hexEnd stack role read lead value
      else pure ⟨stack, .hex role read lead (missing - 1) value⟩

/-- A character after a complete value. -/
def afterStep (machine : Machine) (c : Char) : Except JsonFault Machine :=
  if isGap c then pure machine
  else
    match machine.mode, c with
    | .afterItem before, ',' => pure ⟨machine.stack, .nextItem before⟩
    | .afterItem before, ']' => pure (deliver machine.stack (.array before.reverse))
    | .afterItem _, _ => throw .expectedItemEnd
    | .afterMember before, ',' => pure ⟨machine.stack, .nextName before⟩
    | .afterMember before, '\x7d' => pure (deliver machine.stack (.object before.reverse))
    | .afterMember _, _ => throw .expectedMemberEnd
    | _, _ => throw .trailingCharacters

/-- Takes one character. -/
def step (machine : Machine) (c : Char) : Except JsonFault Machine :=
  let stack := machine.stack
  match machine.mode with
  | .value => if isGap c then pure machine else beginValue stack c
  | .firstItem =>
      if isGap c then pure machine
      else if c = ']' then pure (deliver stack (.array []))
      else beginValue (.item [] :: stack) c
  | .nextItem before =>
      if isGap c then pure machine
      else if c = ']' then throw .trailingComma
      else beginValue (.item before :: stack) c
  | .firstName =>
      if isGap c then pure machine
      else if c = '\x7d' then pure (deliver stack (.object []))
      else if c = '"' then pure ⟨stack, .string (.name []) []⟩
      else throw .keyNotString
  | .nextName before =>
      if isGap c then pure machine
      else if c = '\x7d' then throw .trailingComma
      else if c = '"' then pure ⟨stack, .string (.name before) []⟩
      else throw .keyNotString
  | .colon before name =>
      if isGap c then pure machine
      else if c = ':' then pure ⟨.member before name :: stack, .value⟩
      else throw .expectedColon
  | .string role read => stringStep stack role read c
  | .escape role read => escapeStep stack role read c
  | .hex role read lead missing code => hexStep stack role read lead missing code c
  | .pairSlash role read lead =>
      if c = '\\' then pure ⟨stack, .pairLetter role read lead⟩ else throw .unpairedSurrogate
  | .pairLetter role read lead =>
      if c = 'u' then pure ⟨stack, .hex role read (some lead) 4 0⟩ else throw .unpairedSurrogate
  | .number read =>
      if isNumberPart c then pure ⟨stack, .number (c :: read)⟩
      else do
        let value ← readNumber read.reverse
        afterStep (deliver stack (.number value)) c
  | .word missing value =>
      match missing with
      | [] => afterStep (deliver stack value) c
      | [last] => if c = last then pure (deliver stack value) else throw .expectedWord
      | next :: rest =>
          if c = next then pure ⟨stack, .word rest value⟩ else throw .expectedWord
  | .afterItem _ | .afterMember _ | .finished _ => afterStep machine c

/-- The end of the text. -/
def finish (machine : Machine) : Except JsonFault Json :=
  match machine.mode with
  | .finished value => pure value
  | .number read => do
      let value ← readNumber read.reverse
      match machine.stack with
      | [] => pure (.number value)
      | .item _ :: _ => throw .endInArray
      | .member _ _ :: _ => throw .endInObject
  | .value | .nextItem _ | .nextName _ | .word _ _ => throw .endInValue
  | .firstItem | .afterItem _ => throw .endInArray
  | .firstName | .colon _ _ | .afterMember _ => throw .endInObject
  | .string _ _ | .escape _ _ | .hex _ _ _ _ _ | .pairSlash _ _ _ | .pairLetter _ _ _ =>
      throw .endInString

end Machine

/-- Reads a whole text as one value, keeping repeated members. -/
def read (text : String) : Except JsonFault Json := do
  (← text.toList.foldlM Machine.step Machine.start).finish

end Json

end SqlScribe
