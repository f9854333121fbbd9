import SqlScribe.Config
import SqlScribe.Event
import SqlScribe.Identifier
import SqlScribe.Statement.Fragment

/-!
# Changes of rows

A row change names a table, a row by its identifier, and the values to write,
column by column.  It can be compiled into an INSERT, an UPDATE, a DELETE, or
an INSERT that updates the row that is already there.

Increments go into the text of a statement as numbers, so their magnitude is
checked against the configured bound wherever they are used.
-/

namespace SqlScribe

/-- What is written to a column: a value, or an increment of the stored one. -/
inductive WriteValue where
  | literal (value : Json)
  | increment (delta : Int)
deriving DecidableEq, Repr, Inhabited

/-- A change of one row of a table. -/
structure RowChange where
  table : String
  id : Option Json := none
  fields : Entries WriteValue := []
deriving DecidableEq, Repr, Inhabited

namespace RowChange

/-- Writes a value to a column, in the place of an earlier value for it. -/
def write (change : RowChange) (column : String) (value : WriteValue) : RowChange :=
  { change with fields := change.fields.put column value }

/-- Writes several values one after another. -/
def writeAll (change : RowChange) (values : List (String × WriteValue)) : RowChange :=
  values.foldl (fun changed entry => changed.write entry.1 entry.2) change

/-- An identifier of a row: a scalar other than null. -/
def scalarId (id : Json) : Except SqlError Json :=
  match id with
  | .array _ | .object _ | .null => .error (.invalidValue "id" (.identifierNotScalar id))
  | scalar => .ok scalar

/-- Accepts an increment whose magnitude is within that of the configured bound. -/
def checkDelta (config : Config) (column : String) (delta : Int) : Except SqlError Int :=
  if config.maxIncrement.natAbs < delta.natAbs then
    .error (.invalidValue column (.incrementOutOfBounds delta config.maxIncrement))
  else .ok delta

/-- The condition that selects the row. -/
def rowCondition
    (config : Config) (change : RowChange) (operation : RowOperation) : Except SqlError Expr :=
  match change.id with
  | none => .error (.missingIdentifier operation)
  | some id => do
      let key ← checkName config.identifierKey
      let id ← scalarId id
      pure (.compare (.column ⟨none, key⟩) .equal (.literal id))

/-- The assignment of an UPDATE for one column. -/
def assignment (config : Config) (column : String) : WriteValue → Except SqlError Assignment
  | .literal value => do
      pure ⟨← checkName column, .literal value⟩
  | .increment delta => do
      let delta ← checkDelta config column delta
      pure ⟨← checkName column, .increment delta⟩

/-- The value of an INSERT for one column; an increment counts from nothing. -/
def insertedValue (config : Config) (column : String) : WriteValue → Except SqlError Json
  | .literal value => .ok value
  | .increment delta => do
      pure (.integer (← checkDelta config column delta))

/-- The columns of an INSERT with their values, for the written fields. -/
def insertedFields
    (config : Config) : List (String × WriteValue) → Except SqlError (List (String × Json))
  | [] => .ok []
  | (column, value) :: rest => do
      let column ← checkName column
      let value ← insertedValue config column value
      pure ((column, value) :: (← insertedFields config rest))

/-- The identifier column of an INSERT with its value, unless a field writes that column. -/
def insertedId (config : Config) (change : RowChange) : Except SqlError (List (String × Json)) :=
  match change.id with
  | none => .ok []
  | some id =>
      if config.identifierKey ∈ change.fields.keys then .ok []
      else do
        let key ← checkName config.identifierKey
        let id ← scalarId id
        pure [(key, id)]

/-- The INSERT of a change, without a clause for rows that are already there. -/
def insertion (config : Config) (change : RowChange) : Except SqlError Insert := do
  let id ← insertedId config change
  let fields ← insertedFields config change.fields
  let table ← checkName change.table
  let row := id ++ fields
  pure ⟨table, row.map Prod.fst, row.map Prod.snd, []⟩

/-- The UPDATE of a change. -/
def updating (config : Config) (change : RowChange) : Except SqlError Update := do
  let condition ← rowCondition config change .update
  let table ← checkName change.table
  if change.fields.isEmpty then throw (.emptyStatement (.updateSetsNothing table))
  let assignments ← change.fields.mapM fun (column, value) => assignment config column value
  pure ⟨table, assignments, condition⟩

/-- The DELETE of a change. -/
def deletion (config : Config) (change : RowChange) : Except SqlError Delete := do
  let condition ← rowCondition config change .destroy
  let table ← checkName change.table
  pure ⟨table, condition⟩

/--
What happens to the columns of a row that is already there: every written
column takes the value that the INSERT tried to write, or adds its increment,
except the identifier and the excluded columns.
-/
def duplicateAssignments
    (config : Config) (excluded : List String) (fields : List (String × WriteValue)) :
    List Assignment :=
  let overwritten := fields.filter fun (column, _) =>
    !(column == config.identifierKey || excluded.contains column)
  overwritten.map fun (column, value) =>
    match value with
    | .literal _ => ⟨column, .inserted⟩
    | .increment delta => ⟨column, .increment delta⟩

/--
The INSERT of a change with a clause for a row that is already there.  If that
clause has nothing to assign, it leaves the first column as it is.
-/
def upsertion
    (config : Config) (change : RowChange) (excluded : List String) : Except SqlError Insert := do
  let insert ← insertion config change
  match insert.columns with
  | [] => throw (.emptyStatement (.upsertWritesNothing insert.table))
  | first :: _ =>
      let assignments := duplicateAssignments config excluded change.fields
      pure { insert with
        onDuplicate := if assignments.isEmpty then [⟨first, .unchanged⟩] else assignments }

/-- The statement of an operation; `excluded` are the columns that an upsert must not overwrite. -/
def statement
    (config : Config) (change : RowChange) (operation : RowOperation) (excluded : List String) :
    Except SqlError Statement :=
  match operation with
  | .create => (insertion config change).map .insert
  | .update => (updating config change).map .update
  | .destroy => (deletion config change).map .delete
  | .upsert => (upsertion config change excluded).map .insert

/-- The SQL text of an operation, and the events reported on the way. -/
def toSql
    (config : Config) (change : RowChange) (operation : RowOperation) (excluded : List String) :
    Except SqlError String × List Event :=
  let sql := do
    (← change.statement config operation excluded).toSql
  match sql with
  | .ok text => (sql, [.compiled (.row operation) change.table text])
  | .error _ => (sql, [])

end RowChange

end SqlScribe
