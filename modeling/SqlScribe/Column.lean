import SqlScribe.Error
import SqlScribe.Statement
import SqlScribe.Text.Blank
import SqlScribe.Text.Split

/-!
# Columns of a table

A column is described by what it holds rather than by its SQL type.  Each kind
of content has a MySQL type and a size of its own; a size that is given wins
over that one.
-/

namespace SqlScribe

/-- What a column holds. -/
inductive ColumnContent where
  | string
  | email
  | password
  | text
  | integer
  | pointer
  | float
  | money
  | geopoint
  | datetime
  | acl
deriving DecidableEq, Repr, Inhabited

/-- The size of a column: a length, or a number of digits and of decimal places. -/
inductive ColumnSize where
  | length (digits : Nat)
  | precision (digits places : Nat)
deriving DecidableEq, Repr, Inhabited

namespace ColumnSize

/-- The numbers of a size lie below this bound, `2 ^ 32`. -/
def numberLimit : Nat := 0x100000000

/-- The size in parentheses. -/
def text : ColumnSize → String
  | .length digits => "(" ++ toString digits ++ ")"
  | .precision digits places => "(" ++ toString digits ++ "," ++ toString places ++ ")"

/-- Reads a number of a size: digits with an optional plus sign, and blanks around them. -/
def number? (text : List Char) : Option Nat :=
  let trimmed := Text.trim text
  let digits :=
    match trimmed with
    | '+' :: rest => rest
    | rest => rest
  if digits.isEmpty || !digits.all Char.isDigit then none
  else
    let value := digits.foldl (fun n c => n * 10 + (c.toNat - '0'.toNat)) 0
    if value < numberLimit then some value else none

/-- Reads a size: one number, or two with a comma between them. -/
def read? (text : List Char) : Option ColumnSize :=
  match Text.splitOnce? ',' text with
  | none => (number? text).map .length
  | some (digits, places) => do
      pure (.precision (← number? digits) (← number? places))

/-- Reads a size, or says what was expected. -/
def read (text : String) : Except SqlError ColumnSize :=
  match read? text.toList with
  | some size => .ok size
  | none => .error (.invalidValue "size" (.sizeText text))

end ColumnSize

namespace ColumnContent

/-- The kinds of content with their names in documents. -/
def named : List (String × ColumnContent) :=
  [("string", .string), ("email", .email), ("password", .password), ("text", .text),
    ("integer", .integer), ("pointer", .pointer), ("float", .float), ("money", .money),
    ("geopoint", .geopoint), ("datetime", .datetime), ("acl", .acl)]

/-- The MySQL type of a kind of content. -/
def typeName : ColumnContent → String
  | .string | .email | .password => "VARCHAR"
  | .text | .acl => "TEXT"
  | .integer | .pointer => "INT"
  | .float | .money | .geopoint => "FLOAT"
  | .datetime => "DATETIME"

/-- The size of a kind of content, if its type has one. -/
def size? : ColumnContent → Option ColumnSize
  | .string => some (.length 30)
  | .email => some (.length 60)
  | .password => some (.length 250)
  | .text | .acl | .datetime => none
  | .integer | .pointer => some (.length 11)
  | .float | .money => some (.precision 14 2)
  | .geopoint => some (.precision 12 8)

end ColumnContent

/-- A property of a column beside its type. -/
inductive Addon where
  | primary
  | increment
  | unique
  | required
deriving DecidableEq, Repr, Inhabited

/-- The properties with their names in documents. -/
def Addon.named : List (String × Addon) :=
  [("primary", .primary), ("increment", .increment), ("unique", .unique), ("required", .required)]

/-- The description of a column. -/
structure ColumnSpec where
  content : ColumnContent
  size : Option ColumnSize := none
  addons : List Addon := []
deriving DecidableEq, Repr, Inhabited

namespace ColumnSpec

def has (spec : ColumnSpec) (addon : Addon) : Bool := spec.addons.contains addon

/-- Adds a property that the column does not have yet. -/
def withAddon (spec : ColumnSpec) (addon : Addon) : ColumnSpec :=
  if spec.has addon then spec else { spec with addons := spec.addons ++ [addon] }

/-- The SQL type of a column. -/
def sqlType (spec : ColumnSpec) : String :=
  match spec.size.or spec.content.size? with
  | some size => spec.content.typeName ++ size.text
  | none => spec.content.typeName

/-- The definition of a column under a name; a primary key is never null. -/
def definition (spec : ColumnSpec) (name : String) : ColumnDefinition :=
  { name
    sqlType := spec.sqlType
    notNull := spec.has .primary || spec.has .required
    autoIncrement := spec.has .increment
    primaryKey := spec.has .primary }

end ColumnSpec

/-- The actions on a column with their names in documents. -/
def ColumnAction.named : List (String × ColumnAction) :=
  [("add", .add), ("modify", .modify), ("drop", .drop), ("rename", .rename)]

/-- What an alteration does with one column. -/
structure ColumnChange where
  action : ColumnAction
  newName : Option String := none
  definition : Option ColumnSpec := none
deriving DecidableEq, Repr, Inhabited

end SqlScribe
