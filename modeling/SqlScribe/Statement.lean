import SqlScribe.Json
import SqlScribe.Operator

/-!
# Statements

The statements that the compilers produce, as trees.  Nothing here knows about
documents, and nothing here knows about blanks or quotes: the text of a
statement is the business of `SqlScribe.Statement.Fragment`.
-/

namespace SqlScribe

/-- A table in a FROM or JOIN clause. -/
structure TableRef where
  name : String
  aliasName : Option String
deriving DecidableEq, Repr, Inhabited

/-- The name by which the other clauses refer to a table. -/
def TableRef.reference (table : TableRef) : String := table.aliasName.getD table.name

/-- A column, with the name of its table if it has one. -/
structure ColumnRef where
  qualifier : Option String
  name : String
deriving DecidableEq, Repr, Inhabited

/-- One item of a SELECT list, with its output name. -/
structure SelectItem where
  column : ColumnRef
  output : Option String
deriving DecidableEq, Repr, Inhabited

/-- What a SELECT returns: all columns, the listed ones, or the number of rows under a name. -/
inductive Projection where
  | all
  | columns (items : List SelectItem)
  | count (output : String)
deriving DecidableEq, Repr, Inhabited

inductive SortDirection where
  | ascending
  | descending
deriving DecidableEq, Repr, Inhabited

/-- One item of an ORDER BY clause. -/
structure OrderKey where
  column : ColumnRef
  direction : SortDirection
deriving DecidableEq, Repr, Inhabited

/-- How many rows to pass over and how many to return. -/
structure Limit where
  skip : Option Nat
  count : Option Nat
deriving DecidableEq, Repr, Inhabited

mutual

/-- A condition, or a part of one. -/
inductive Expr where
  | column (column : ColumnRef)
  | concat (columns : List ColumnRef)
  | literal (value : Json)
  | compare (left : Expr) (comparison : Comparison) (right : Expr)
  | like (subject : Expr) (pattern : String)
  | nullCheck (subject : Expr) (isNull : Bool)
  | inList (subject : Expr) (values : List Json) (negated : Bool)
  | inSelect (subject : Expr) (query : Select) (negated : Bool)
  | and (parts : List Expr)
  | group (inner : Expr)
  | truth

/-- A left outer join on a table. -/
structure Join where
  table : TableRef
  condition : Expr

/-- A SELECT statement. -/
structure Select where
  projection : Projection
  source : TableRef
  joins : List Join
  condition : Option Expr
  order : List OrderKey
  limit : Limit

end

instance : Inhabited Expr := ⟨.truth⟩

instance : Inhabited Select := ⟨⟨.all, ⟨"", none⟩, [], none, [], ⟨none, none⟩⟩⟩

namespace Expr

/-- Membership in a list; in an empty list it is no condition at all. -/
def inListOrTruth (subject : Expr) (values : List Json) (negated : Bool) : Expr :=
  if values.isEmpty then .truth else .inList subject values negated

/-- The conjunction of some conditions; a single one stands for itself. -/
def conjunction : List Expr → Expr
  | [only] => only
  | parts => .and parts

end Expr

/-- The right-hand side of an assignment to a column. -/
inductive AssignedValue where
  | literal (value : Json)
  | increment (delta : Int)
  | inserted
  | unchanged
deriving DecidableEq, Repr, Inhabited

/-- An assignment to a column. -/
structure Assignment where
  column : String
  value : AssignedValue
deriving DecidableEq, Repr, Inhabited

/-- An INSERT, with what happens to a row that is already there. -/
structure Insert where
  table : String
  columns : List String
  values : List Json
  onDuplicate : List Assignment
deriving DecidableEq, Repr, Inhabited

structure Update where
  table : String
  assignments : List Assignment
  condition : Expr
deriving Inhabited

structure Delete where
  table : String
  condition : Expr
deriving Inhabited

/-- The definition of a column in a CREATE TABLE or ALTER TABLE. -/
structure ColumnDefinition where
  name : String
  sqlType : String
  notNull : Bool
  autoIncrement : Bool
  primaryKey : Bool
deriving DecidableEq, Repr, Inhabited

structure CreateTable where
  table : String
  ifNotExists : Bool
  columns : List ColumnDefinition
  unique : List String
deriving DecidableEq, Repr, Inhabited

/-- One change of an ALTER TABLE. -/
inductive TableAlteration where
  | add (definition : ColumnDefinition)
  | modify (definition : ColumnDefinition)
  | drop (column : String)
  | change (column : String) (definition : ColumnDefinition)
  | addUnique (columns : List String)
deriving DecidableEq, Repr, Inhabited

structure AlterTable where
  table : String
  alterations : List TableAlteration
deriving DecidableEq, Repr, Inhabited

structure DropTable where
  table : String
  ifExists : Bool
deriving DecidableEq, Repr, Inhabited

/-- A statement of any kind. -/
inductive Statement where
  | select (statement : Select)
  | insert (statement : Insert)
  | update (statement : Update)
  | delete (statement : Delete)
  | createTable (statement : CreateTable)
  | alterTable (statement : AlterTable)
  | dropTable (statement : DropTable)

end SqlScribe
