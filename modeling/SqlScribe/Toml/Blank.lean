import SqlScribe.Toml.Value

/-!
# Blanks, line ends and comments

A line ends with a newline, before which there may be a carriage return.  A
carriage return stands nowhere else, which `returnsPaired` says of a whole file;
the readers of its parts take a carriage return for a part of a line end.
-/

namespace SqlScribe.Toml

/-- Blanks within a line. -/
def isBlank (c : Char) : Bool := c == ' ' || c == '\t'

/-- The characters of line ends. -/
def isLineEnd (c : Char) : Bool := c == '\n' || c == '\r'

/-- The characters that stand for themselves in comments and strings: all but control characters. -/
def isPlain (c : Char) : Bool := c == '\t' || (0x20 ≤ c.toNat && c.toNat != 0x7F)

/-- Whether a newline follows every carriage return. -/
def returnsPaired : List Char → Bool
  | [] => true
  | '\r' :: rest => rest.head? == some '\n' && returnsPaired rest
  | _ :: rest => returnsPaired rest

def skipBlanks (text : List Char) : List Char := text.dropWhile isBlank

/-- The text after blanks, line ends and comments; it may begin inside of a comment. -/
def skipLines (inComment : Bool) : List Char → Except Fault (List Char)
  | [] => .ok []
  | c :: rest =>
      if inComment then
        if isLineEnd c then skipLines false rest
        else if isPlain c then skipLines true rest
        else .error .controlCharacter
      else if isBlank c || isLineEnd c then skipLines false rest
      else if c = '#' then skipLines true rest
      else .ok (c :: rest)

/-- The text from the end of a line on, where nothing but blanks and a comment may be left of it. -/
def endLine (text : List Char) : Except Fault (List Char) :=
  match skipBlanks text with
  | [] => .ok []
  | c :: rest =>
      if isLineEnd c || c == '#' then .ok (c :: rest) else .error .trailingCharacters

end SqlScribe.Toml
