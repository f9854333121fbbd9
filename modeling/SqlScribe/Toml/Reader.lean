import SqlScribe.Toml.Moment
import SqlScribe.Toml.Numeral
import SqlScribe.Toml.Quoted
import SqlScribe.Toml.Table

/-!
# Reading a settings file

A file is a sequence of lines, each with a header or with a key and its value.
Within brackets a value may go on over several lines.

Values are read with a bound on how deep they may be nested.  The loops over
the parts of a value and over the lines take as many turns as there are
characters at most, since each turn takes a character or more.
-/

namespace SqlScribe.Toml

/-- How many names a key may have. -/
def keyLimit : Nat := 80

/-- How deep arrays and inline tables may be nested. -/
def depthLimit : Nat := 80

/-! ## Keys -/

/-- The characters of a name without quotes. -/
def isBareKey (c : Char) : Bool := c.isAlphanum || c == '_' || c == '-'

/-- One name of a key, and the text after it. -/
def readName (text : List Char) : Except Fault (String × List Char) :=
  match lineString? text with
  | some result => result
  | none =>
      let bare := text.takeWhile isBareKey
      if bare.isEmpty then .error .badKey
      else .ok (String.ofList bare, text.dropWhile isBareKey)

/-- A key of so many names at most, and the text after it and the blanks behind it. -/
def readKey : (names : Nat) → List Char → Except Fault (Key × List Char)
  | 0, _ => .error .keyTooLong
  | names + 1, text => do
      let (first, rest) ← readName (skipBlanks text)
      match skipBlanks rest with
      | '.' :: rest => do
          let (key, rest) ← readKey names rest
          pure (⟨first :: key.path, key.name⟩, rest)
      | rest => pure (⟨[], first⟩, rest)

/-! ## Values -/

/-- The characters that end a word. -/
def endsWord (c : Char) : Bool :=
  isBlank c || isLineEnd c || c == '=' || c == ',' || c == '#' || c == '[' || c == ']' ||
    c == '\x7b' || c == '\x7d'

/--
The word at the beginning of a text, and the text after it.  A day and the next
word after a single blank are one word, in which the blank stands for a `T`.
-/
def readWord (text : List Char) : List Char × List Char :=
  let word := text.takeWhile (!endsWord ·)
  match text.dropWhile (!endsWord ·) with
  | ' ' :: after =>
      let next := after.takeWhile (!endsWord ·)
      if (Date.ofWholeText? word).isSome && !next.isEmpty then
        (word ++ ' ' :: next, after.dropWhile (!endsWord ·))
      else (word, ' ' :: after)
  | rest => (word, rest)

/-- The value that a word stands for. -/
def wordValue? (word : List Char) : Option Value :=
  if word = "true".toList then some (.boolean true)
  else if word = "false".toList then some (.boolean false)
  else (number? word).or ((Moment.ofText? word).map Value.moment)

/-- A value without brackets, and the text after it. -/
def readScalar (text : List Char) : Except Fault (Value × List Char) :=
  match string? text with
  | some result => result.map fun (inside, rest) => (.string inside, rest)
  | none =>
      let (word, rest) := readWord text
      match wordValue? word with
      | some value => .ok (value, rest)
      | none => .error .badValue

section Brackets

variable (read : List Char → Except Fault (Value × List Char))

/-- The items of an array from a bracket or comma on, in at most so many turns. -/
def readItems : (turns : Nat) → (before : List Value) → List Char →
    Except Fault (Value × List Char)
  | 0, _, _ => .error .unclosedArray
  | turns + 1, before, text => do
      match ← skipLines false text with
      | ']' :: rest => pure (.array before.reverse, rest)
      | start => do
          let (item, rest) ← read start
          match ← skipLines false rest with
          | ',' :: rest => readItems turns (item :: before) rest
          | ']' :: rest => pure (.array (item :: before).reverse, rest)
          | _ => throw .unclosedArray

/-- The members of an inline table from a bracket or comma on, in at most so many turns. -/
def readMembers : (turns : Nat) → (before : Members) → List Char →
    Except Fault (Value × List Char)
  | 0, _, _ => .error .unclosedTable
  | turns + 1, before, text => do
      match ← skipLines false text with
      | '\x7d' :: rest => pure (.table .inline before, rest)
      | start => do
          let (key, rest) ← readKey keyLimit start
          match ← skipLines false rest with
          | '=' :: rest => do
              let (value, rest) ← read (← skipLines false rest)
              let members ← assign key value before
              match ← skipLines false rest with
              | ',' :: rest => readMembers turns members rest
              | '\x7d' :: rest => pure (.table .inline members, rest)
              | _ => throw .unclosedTable
          | _ => throw .equalsMissing

end Brackets

/-- A value that is nested at most so deep, and the text after it. -/
def readValue : (depth : Nat) → List Char → Except Fault (Value × List Char)
  | 0, text =>
      match text with
      | '[' :: _ | '\x7b' :: _ => .error .nestedTooDeep
      | _ => readScalar text
  | depth + 1, text =>
      match text with
      | '[' :: rest => readItems (readValue depth) (rest.length + 1) [] rest
      | '\x7b' :: rest => readMembers (readValue depth) (rest.length + 1) [] rest
      | _ => readScalar text

/-! ## Files -/

/-- A file while it is read: what it says so far, and the table that is open. -/
structure Reading where
  content : Members
  place : List String
deriving Repr, Inhabited

namespace Reading

/-- A header of a table, after its opening bracket. -/
def header (reading : Reading) (text : List Char) : Except Fault (Reading × List Char) := do
  let (key, rest) ← readKey keyLimit text
  match rest with
  | ']' :: rest => pure (⟨← openTable key reading.content, key.names⟩, ← endLine rest)
  | _ => throw .badHeader

/-- A header of one more table of an array, after its opening brackets. -/
def itemHeader (reading : Reading) (text : List Char) : Except Fault (Reading × List Char) := do
  let (key, rest) ← readKey keyLimit text
  match rest with
  | ']' :: ']' :: rest => pure (⟨← openItem key reading.content, key.names⟩, ← endLine rest)
  | _ => throw .badHeader

/-- A key and its value. -/
def assignment (reading : Reading) (text : List Char) : Except Fault (Reading × List Char) := do
  let (key, rest) ← readKey keyLimit text
  match rest with
  | '=' :: rest => do
      let (value, rest) ← readValue depthLimit (skipBlanks rest)
      let content ← assignAt reading.place key value reading.content
      pure ({ reading with content }, ← endLine rest)
  | _ => throw .equalsMissing

/-- The lines of a text one after another, in at most so many turns. -/
def lines (reading : Reading) : (turns : Nat) → List Char → Except Fault Reading
  | 0, _ => .error .trailingCharacters
  | turns + 1, text => do
      let (reading, rest) ←
        match ← skipLines false text with
        | [] => return reading
        | '[' :: '[' :: rest => reading.itemHeader rest
        | '[' :: rest => reading.header rest
        | start => reading.assignment start
      reading.lines turns rest

end Reading

/-- The text without a mark of its byte order at the beginning. -/
def withoutByteOrderMark : List Char → List Char
  | '\ufeff' :: rest => rest
  | text => text

/-- What a file says. -/
def read (text : String) : Except Fault Members := do
  let text := withoutByteOrderMark text.toList
  if !returnsPaired text then throw .loneReturn
  let reading ← (⟨[], []⟩ : Reading).lines (text.length + 1) text
  pure reading.content

end SqlScribe.Toml
