import SqlScribe.Column
import SqlScribe.Event
import SqlScribe.Identifier
import SqlScribe.Statement.Fragment

/-!
# Changes of tables

A table change holds the columns of a table that is to be created and the
alterations of one that exists.  Unique columns are gathered into one clause at
the end of a statement.
-/

namespace SqlScribe

/-- The columns of a new table, and the changes to the columns of an existing one. -/
structure TableChange where
  table : String
  columns : List (String × ColumnSpec) := []
  changes : List (String × ColumnChange) := []
deriving DecidableEq, Repr, Inhabited

namespace TableChange

/-- Checks the columns of a new table one after another: each is a name that was not used before. -/
def checkColumns (used : List String) : List (String × ColumnSpec) → Except SqlError Unit
  | [] => .ok ()
  | (name, _) :: rest => do
      let name ← checkName name
      if used.contains name then throw (.invalidValue name .columnTwice)
      checkColumns (name :: used) rest

/-- The CREATE TABLE of a change. -/
def creation (change : TableChange) (ifNotExists : Bool) : Except SqlError CreateTable := do
  let table ← checkName change.table
  if change.columns.isEmpty then throw (.emptyStatement (.tableWithoutColumns table))
  checkColumns [] change.columns
  let unique := change.columns.filter fun (_, spec) => spec.has .unique
  pure
    { table
      ifNotExists
      columns := change.columns.map fun (name, spec) => spec.definition name
      unique := unique.map Prod.fst }

/-- The definition that comes with an action on a column. -/
def definitionOf (name : String) (change : ColumnChange) : Except SqlError ColumnSpec :=
  match change.definition with
  | some spec => .ok spec
  | none => .error (.invalidValue name (.actionWithoutDefinition change.action))

/-- The name that a column has after a change, and its definition. -/
def renamed (name : String) (change : ColumnChange) : Except SqlError (String × ColumnSpec) :=
  match change.newName with
  | none => .error (.invalidValue name .renameWithoutName)
  | some newName => do
      let target ← checkName newName
      pure (target, ← definitionOf name change)

/-- The alteration for one column, and the column that it makes unique, if any. -/
def alteration
    (name : String) (change : ColumnChange) :
    Except SqlError (TableAlteration × Option String) := do
  let name ← checkName name
  let uniqueTarget (spec : ColumnSpec) (target : String) : Option String :=
    if spec.has .unique then some target else none
  match change.action with
  | .drop => pure (.drop name, none)
  | .rename => do
      let (target, spec) ← renamed name change
      pure (.change name (spec.definition target), uniqueTarget spec target)
  | .add => do
      let spec ← definitionOf name change
      pure (.add (spec.definition name), uniqueTarget spec name)
  | .modify => do
      let spec ← definitionOf name change
      pure (.modify (spec.definition name), uniqueTarget spec name)

/-- The ALTER TABLE of a change. -/
def altering (change : TableChange) : Except SqlError AlterTable := do
  let table ← checkName change.table
  if change.changes.isEmpty then throw (.emptyStatement (.alterChangesNothing table))
  let alterations ← change.changes.mapM fun (name, change) => alteration name change
  let unique := alterations.filterMap Prod.snd
  pure ⟨table,
    alterations.map Prod.fst ++ (if unique.isEmpty then [] else [.addUnique unique])⟩

/-- The DROP TABLE of a change. -/
def dropping (change : TableChange) (ifExists : Bool) : Except SqlError DropTable := do
  pure ⟨← checkName change.table, ifExists⟩

/-- The statement of an operation. -/
def statement (change : TableChange) : TableOperation → Except SqlError Statement
  | .create => (change.creation false).map .createTable
  | .createIfMissing => (change.creation true).map .createTable
  | .alter => change.altering.map .alterTable
  | .drop => (change.dropping false).map .dropTable
  | .dropIfExists => (change.dropping true).map .dropTable

/-- The SQL text of an operation, and the events reported on the way. -/
def toSql (change : TableChange) (operation : TableOperation) :
    Except SqlError String × List Event :=
  let sql := do
    (← change.statement operation).toSql
  match sql with
  | .ok text => (sql, [.compiled (.table operation) change.table text])
  | .error _ => (sql, [])

end TableChange

end SqlScribe
