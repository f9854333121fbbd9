import SqlScribe.Error
import SqlScribe.Text.Split

/-!
# Values and names in SQL text

Values are written as MySQL literals and names between backticks, so that
nothing in them can be taken for SQL.
-/

namespace SqlScribe

/-- A character inside a string literal. -/
def literalChar (c : Char) : List Char :=
  match c with
  | '\x00' => ['\\', '0']
  | '\x08' => ['\\', 'b']
  | '\t' => ['\\', 't']
  | '\n' => ['\\', 'n']
  | '\r' => ['\\', 'r']
  | '\x1a' => ['\\', 'Z']
  | '"' => ['\\', '"']
  | '\x27' => ['\\', '\x27']
  | '\\' => ['\\', '\\']
  | c => [c]

/-- A string literal: the text between single quotes, special characters behind a backslash. -/
def stringLiteral (text : List Char) : List Char :=
  '\x27' :: text.flatMap literalChar ++ ['\x27']

mutual

/--
The literal of a value.  An array is the list of its items' literals, and an
object is the string literal of its JSON text.
-/
def Json.literal : Json → List Char
  | .null => "NULL".toList
  | .bool value => Json.boolText value
  | .number value => value.text
  | .string text => stringLiteral text.toList
  | .array items => literalList items
  | .object members => stringLiteral (Json.text (.object members))

/-- The literals of several values, separated by commas. -/
def Json.literalList : List Json → List Char
  | [] => []
  | [value] => value.literal
  | value :: next :: rest => value.literal ++ [',', ' '] ++ literalList (next :: rest)

end

/-- The quote around names. -/
def nameQuote : Char := '\x60'

/-- One segment of a name between backticks, backticks inside it doubled. -/
def quotedSegment (segment : List Char) : List Char :=
  nameQuote ::
    segment.flatMap (fun c => if c = nameQuote then [nameQuote, nameQuote] else [c]) ++
      [nameQuote]

/-- A name between backticks, segment by segment if it holds dots. -/
def quotedName (name : String) : Except SqlError (List Char) :=
  if name.toList = [] then .error (.unquotable .empty)
  else if '\x00' ∈ name.toList then .error (.unquotable .holdsNul)
  else .ok (Text.joinWith ['.'] ((Text.splitAt '.' name.toList).map quotedSegment))

end SqlScribe
