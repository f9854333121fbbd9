import SqlScribe.Text.Digit
import SqlScribe.Toml.Blank

/-!
# Quoted strings

A string stands between quotation marks, or between apostrophes if nothing in
it is escaped.  Written with three marks on each side it may go on over several
lines: a line end right after the opening marks does not belong to it, and the
last one or two of more than three closing marks do.
-/

namespace SqlScribe.Toml

/-- What may come next in a string with escapes. -/
inductive QuotedMode where
  | plain
  | escape
  | hex (missing : Nat) (code : Nat)
  /-- After a backslash and blanks, where the line has to end. -/
  | lineEnd
  /-- After such a line end, where blanks and line ends do not count. -/
  | gap
deriving DecidableEq, Repr

/-- The character with a code point, if there is one. -/
def charOfCode? (code : Nat) : Option Char :=
  if code.isValidChar then some (Char.ofNat code) else none

/-- The characters that an escape of one letter stands for. -/
def simpleEscapes : List (Char × Char) :=
  [('b', '\x08'), ('t', '\t'), ('n', '\n'), ('f', '\x0c'), ('r', '\r'), ('e', '\x1b'),
    ('"', '"'), ('\\', '\\')]

/-- How many hexadecimal digits follow the letter of an escape. -/
def hexEscapes : List (Char × Nat) := [('x', 2), ('u', 4), ('U', 8)]

section Strings

variable (severalLines : Bool)

/-- Whether a character stands for itself, as far as it is no mark. -/
def standsForItself (c : Char) : Bool := isPlain c || severalLines && isLineEnd c

/-- What the closing marks at the beginning of a text add to a string, and the text after them. -/
def closing? (mark : Char) (text : List Char) : Option (List Char × List Char) :=
  let marks := (text.takeWhile (· == mark)).length
  if severalLines then
    if marks < 3 then none
    else some (List.replicate (min marks 5 - 3) mark, text.drop (min marks 5))
  else if marks = 0 then none
  else some ([], text.drop 1)

/-- The character after a backslash. -/
def afterBackslash (c : Char) : Except Fault (QuotedMode × Option Char) :=
  match simpleEscapes.lookup c, hexEscapes.lookup c with
  | some meant, _ => .ok (.plain, some meant)
  | none, some digits => .ok (.hex digits 0, none)
  | none, none =>
      if severalLines && (isBlank c || c == '\r') then .ok (.lineEnd, none)
      else if severalLines && c == '\n' then .ok (.gap, none)
      else .error .badEscape

/-- A character that is not escaped. -/
def plainCharacter (c : Char) : Except Fault (QuotedMode × Option Char) :=
  if c = '\\' then .ok (.escape, none)
  else if standsForItself severalLines c then .ok (.plain, some c)
  else .error .controlCharacter

/-- A digit of an escape by code point. -/
def hexDigit (missing code : Nat) (c : Char) : Except Fault (QuotedMode × Option Char) :=
  match Text.hexValue? c with
  | none => .error .badEscape
  | some digit =>
      let code := code * 16 + digit
      if 1 < missing then .ok (.hex (missing - 1) code, none)
      else
        match charOfCode? code with
        | some meant => .ok (.plain, some meant)
        | none => .error .badEscape

/-- Takes one character: what may come next, and the character that is added to the string. -/
def QuotedMode.step (c : Char) : QuotedMode → Except Fault (QuotedMode × Option Char)
  | .plain => plainCharacter severalLines c
  | .escape => afterBackslash severalLines c
  | .hex missing code => hexDigit missing code c
  | .lineEnd =>
      if isBlank c || c == '\r' then .ok (.lineEnd, none)
      else if c = '\n' then .ok (.gap, none)
      else .error .badEscape
  | .gap =>
      if isBlank c || isLineEnd c then .ok (.gap, none) else plainCharacter severalLines c

/-- Whether a mark closes the string. -/
def QuotedMode.mayClose : QuotedMode → Bool
  | .plain | .gap => true
  | .escape | .hex _ _ | .lineEnd => false

/-- What a string with escapes holds, after what was read of it, and the text after it. -/
def readEscaped (mode : QuotedMode) (read : List Char) :
    List Char → Except Fault (String × List Char)
  | [] => .error .unclosedString
  | c :: rest =>
      match if mode.mayClose then closing? severalLines '"' (c :: rest) else none with
      | some (extra, after) => .ok (String.ofList (read.reverse ++ extra), after)
      | none => do
          let (next, meant) ← mode.step severalLines c
          readEscaped next (meant.toList ++ read) rest

/-- What a string without escapes holds, after what was read of it, and the text after it. -/
def readLiteral (read : List Char) : List Char → Except Fault (String × List Char)
  | [] => .error .unclosedString
  | c :: rest =>
      match closing? severalLines '\x27' (c :: rest) with
      | some (extra, after) => .ok (String.ofList (read.reverse ++ extra), after)
      | none =>
          if standsForItself severalLines c then readLiteral (c :: read) rest
          else .error .controlCharacter

end Strings

/-- The text after the line end that it begins with, if it begins with one. -/
def dropLineEnd : List Char → List Char
  | '\n' :: rest => rest
  | '\r' :: '\n' :: rest => rest
  | text => text

/-- The string on one line at the beginning of a text, and the text after it. -/
def lineString? : List Char → Option (Except Fault (String × List Char))
  | '"' :: rest => some (readEscaped false .plain [] rest)
  | '\x27' :: rest => some (readLiteral false [] rest)
  | _ => none

/-- The string at the beginning of a text, and the text after it. -/
def string? : List Char → Option (Except Fault (String × List Char))
  | '"' :: '"' :: '"' :: rest => some (readEscaped true .plain [] (dropLineEnd rest))
  | '\x27' :: '\x27' :: '\x27' :: rest => some (readLiteral true [] (dropLineEnd rest))
  | text => lineString? text

end SqlScribe.Toml
