import SqlScribe.Error
import SqlScribe.Text.Bytes
import SqlScribe.Text.Split

/-!
# Identifiers

Names of tables, aliases and columns come from documents and end up in SQL
text, so each is checked before it is used.  A name is one *segment*: a letter
or underscore, then letters, digits, underscores and dollar signs, at most 64
bytes in all.  A column path is a name with at most one qualifier before it.
-/

namespace SqlScribe

/-- The longest identifier that the database takes, in bytes. -/
def longestIdentifier : Nat := 64

/-- The characters that may begin a segment. -/
def isIdentifierStart (c : Char) : Bool := c == '_' || c.isAlpha

/-- The characters that may follow the first one of a segment. -/
def isIdentifierPart (c : Char) : Bool := c == '_' || c == '$' || c.isAlphanum

/-- What is wrong with a segment, if anything. -/
def segmentFault? : List Char → Option IdentifierFault
  | [] => some .emptySegment
  | first :: rest =>
      if longestIdentifier < Text.byteLength (first :: rest) then some .tooLong
      else if !isIdentifierStart first then some (.startCharacter first)
      else (rest.find? fun c => !isIdentifierPart c).map .character

/-- Accepts a segment of `whole` and hands it back. -/
def checkSegment (whole : String) (segment : List Char) : Except SqlError String :=
  match segmentFault? segment with
  | some fault => .error (.invalidIdentifier whole fault)
  | none => .ok (String.ofList segment)

/-- Accepts a name without qualifier and hands it back. -/
def checkName (name : String) : Except SqlError String := checkSegment name name.toList

/-- A column name, possibly qualified by the name of a table or of an alias. -/
structure ColumnPath where
  qualifier : Option String
  name : String
deriving DecidableEq, Repr, Inhabited

/-- Reads `name` or `qualifier.name`. -/
def ColumnPath.parse (text : String) : Except SqlError ColumnPath :=
  match Text.splitAt '.' text.toList with
  | [name] => do
      pure ⟨none, ← checkSegment text name⟩
  | [qualifier, name] => do
      let qualifier ← checkSegment text qualifier
      pure ⟨some qualifier, ← checkSegment text name⟩
  | _ => .error (.invalidIdentifier text .secondQualifier)

/-- Reads a name that stands without a qualifier. -/
def ColumnPath.simple (text : String) : Except SqlError ColumnPath := do
  pure ⟨none, ← checkName text⟩

end SqlScribe
