/-!
# Configuration

The settings that all statements of a compiler share, and the names that they
have where they are written down.
-/

namespace SqlScribe

/-- The settings of a compiler, each with its default. -/
structure Config where
  /-- The column that identifies a row, and the default target of joins. -/
  identifierKey : String := "id"
  /-- The character between the columns of a substring constraint on several columns. -/
  hasDelimiter : Char := '|'
  /-- The bound on the magnitude of an increment; by default `2 ^ 53 - 1`. -/
  maxIncrement : Int := 9007199254740991
  /-- How deep queries may be nested. -/
  maxSubqueryDepth : Nat := 8
  /-- How many bytes of a statement an event shows; without a limit it shows all of them. -/
  logMaxSqlLength : Option Nat := some 200
deriving DecidableEq, Repr, Inhabited

/-- The settings in the order of their declaration. -/
inductive Setting where
  | identifierKey
  | hasDelimiter
  | maxIncrement
  | maxSubqueryDepth
  | logMaxSqlLength
deriving DecidableEq, Repr

namespace Setting

def all : List Setting :=
  [.identifierKey, .hasDelimiter, .maxIncrement, .maxSubqueryDepth, .logMaxSqlLength]

/-- The name of a setting in documents and files. -/
def name : Setting → String
  | .identifierKey => "identifier_key"
  | .hasDelimiter => "has_delimiter"
  | .maxIncrement => "max_increment"
  | .maxSubqueryDepth => "max_subquery_depth"
  | .logMaxSqlLength => "log_max_sql_length"

/-- The setting with a name, if there is one. -/
def ofName? (name : String) : Option Setting := all.find? fun setting => setting.name == name

end Setting

end SqlScribe
