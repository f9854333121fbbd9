import SqlScribe.Escape
import SqlScribe.Statement

/-!
# The text of a statement

A statement is first laid out as a list of *fragments*: pieces of fixed code,
and between them the names, values and numbers that came from outside.  Only
then is each fragment written, names between backticks and values as literals.
No name or value ever stands in a piece of code.
-/

namespace SqlScribe

/-- A piece of a statement's text. -/
inductive Fragment where
  | code (text : String)
  | name (name : String)
  | value (value : Json)
  | number (value : Int)
deriving DecidableEq, Repr

namespace Fragment

/-- The text of a fragment. -/
def text : Fragment → Except SqlError (List Char)
  | .code written => .ok written.toList
  | .name identifier => quotedName identifier
  | .value literal => .ok literal.literal
  | .number whole => .ok (decimalText whole)

/-- The text of several fragments, or the first error among them. -/
def texts : List Fragment → Except SqlError (List Char)
  | [] => .ok []
  | fragment :: rest => do
      let first ← fragment.text
      pure (first ++ (← texts rest))

/-- Some lists of fragments with a comma between neighbours. -/
def separated : List (List Fragment) → List Fragment
  | [] => []
  | [item] => item
  | item :: next :: rest => item ++ .code ", " :: separated (next :: rest)

end Fragment

open Fragment (separated)

def TableRef.fragments (table : TableRef) : List Fragment :=
  match table.aliasName with
  | none => [.name table.name]
  | some aliasName => [.name table.name, .code " AS ", .name aliasName]

def ColumnRef.fragments (column : ColumnRef) : List Fragment :=
  match column.qualifier with
  | none => [.name column.name]
  | some qualifier => [.name qualifier, .code ".", .name column.name]

def SelectItem.fragments (item : SelectItem) : List Fragment :=
  match item.output with
  | none => item.column.fragments
  | some output => item.column.fragments ++ [.code " AS ", .name output]

def Projection.fragments : Projection → List Fragment
  | .all => [.code "*"]
  | .columns items => separated (items.map SelectItem.fragments)
  | .count output => [.code "COUNT(*) AS ", .name output]

def OrderKey.fragments (key : OrderKey) : List Fragment :=
  let direction :=
    match key.direction with
    | .ascending => " ASC"
    | .descending => " DESC"
  key.column.fragments ++ [.code direction]

/-- The ORDER BY clause with the blank before it, if there is anything to order by. -/
def OrderKey.clause : List OrderKey → List Fragment
  | [] => []
  | keys => .code " ORDER BY " :: separated (keys.map OrderKey.fragments)

/-- The LIMIT clause; rows to pass over without a count leave no row to return. -/
def Limit.fragments : Limit → List Fragment
  | ⟨none, none⟩ => []
  | ⟨none, some count⟩ => [.code "LIMIT ", .number count]
  | ⟨some skip, none⟩ => [.code "LIMIT ", .number skip, .code ", ", .number 0]
  | ⟨some skip, some count⟩ => [.code "LIMIT ", .number skip, .code ", ", .number count]

/-- The LIMIT clause with the blank before it, if there is one. -/
def Limit.clause (limit : Limit) : List Fragment :=
  if limit.skip.isNone && limit.count.isNone then [] else .code " " :: limit.fragments

mutual

def Expr.fragments : Expr → List Fragment
  | .column column => column.fragments
  | .concat columns =>
      .code "CONCAT(" :: separated (columns.map ColumnRef.fragments) ++ [.code ")"]
  | .literal value => [.value value]
  | .compare left comparison right =>
      left.fragments ++ [.code " ", .code comparison.symbol, .code " "] ++ right.fragments
  | .like subject pattern => subject.fragments ++ [.code " LIKE ", .value (.string pattern)]
  | .nullCheck subject isNull =>
      subject.fragments ++ [.code (if isNull then " IS NULL" else " IS NOT NULL")]
  | .inList subject values negated =>
      if values.isEmpty then [.code "1=1"]
      else
        subject.fragments ++ .code (if negated then " NOT IN (" else " IN (") ::
          separated (values.map fun value => [.value value]) ++ [.code ")"]
  | .inSelect subject query negated =>
      subject.fragments ++ .code (if negated then " NOT IN (" else " IN (") ::
        query.fragments ++ [.code ")"]
  | .and [] => [.code "1=1"]
  | .and (part :: rest) => part.fragments ++ Expr.furtherParts rest
  | .group inner => .code "(" :: inner.fragments ++ [.code ")"]
  | .truth => [.code "1=1"]

/-- The parts of a conjunction after the first one. -/
def Expr.furtherParts : List Expr → List Fragment
  | [] => []
  | part :: rest => .code " AND " :: part.fragments ++ Expr.furtherParts rest

def Join.fragments : Join → List Fragment
  | ⟨table, condition⟩ =>
      .code "LEFT OUTER JOIN " :: table.fragments ++ .code " ON " :: condition.fragments

/-- The JOIN clauses, each with the blank before it. -/
def Join.clauses : List Join → List Fragment
  | [] => []
  | join :: rest => .code " " :: join.fragments ++ Join.clauses rest

def Select.fragments : Select → List Fragment
  | ⟨projection, source, joins, condition, order, limit⟩ =>
      .code "SELECT " :: projection.fragments ++ .code " FROM " :: source.fragments ++
        Join.clauses joins ++
        (match condition with
        | none => []
        | some condition => .code " WHERE " :: condition.fragments) ++
        OrderKey.clause order ++ limit.clause

end

def Assignment.fragments (assignment : Assignment) : List Fragment :=
  .name assignment.column :: .code " = " ::
    match assignment.value with
    | .literal value => [.value value]
    | .increment delta => [.name assignment.column, .code " + (", .number delta, .code ")"]
    | .inserted => [.code "VALUES(", .name assignment.column, .code ")"]
    | .unchanged => [.name assignment.column]

/-- The ON DUPLICATE KEY clause with the blank before it, if there is anything to assign. -/
def Assignment.onDuplicateClause : List Assignment → List Fragment
  | [] => []
  | assignments =>
      .code " ON DUPLICATE KEY UPDATE " :: separated (assignments.map Assignment.fragments)

/-- Names in a list, separated by commas. -/
def nameList (names : List String) : List Fragment :=
  separated (names.map fun name => [.name name])

def Insert.fragments (insert : Insert) : List Fragment :=
  .code "INSERT INTO " :: .name insert.table :: .code " (" :: nameList insert.columns ++
    .code ") VALUES (" :: separated (insert.values.map fun value => [.value value]) ++
    .code ")" :: Assignment.onDuplicateClause insert.onDuplicate

def Update.fragments (update : Update) : List Fragment :=
  .code "UPDATE " :: .name update.table :: .code " SET " ::
    separated (update.assignments.map Assignment.fragments) ++
    .code " WHERE " :: update.condition.fragments

def Delete.fragments (delete : Delete) : List Fragment :=
  .code "DELETE FROM " :: .name delete.table :: .code " WHERE " :: delete.condition.fragments

def ColumnDefinition.fragments (definition : ColumnDefinition) : List Fragment :=
  .name definition.name :: .code " " :: .code definition.sqlType ::
    ((if definition.notNull then [.code " NOT NULL"] else []) ++
      (if definition.autoIncrement then [.code " AUTO_INCREMENT"] else []) ++
      (if definition.primaryKey then [.code " PRIMARY KEY"] else []))

def uniqueFragments (columns : List String) : List Fragment :=
  .code "UNIQUE (" :: nameList columns ++ [.code ")"]

def CreateTable.fragments (create : CreateTable) : List Fragment :=
  .code "CREATE TABLE " :: (if create.ifNotExists then [.code "IF NOT EXISTS "] else []) ++
    .name create.table :: .code " (" ::
    separated (create.columns.map ColumnDefinition.fragments) ++
    (if create.unique.isEmpty then [] else .code ", " :: uniqueFragments create.unique) ++
    [.code ")"]

def TableAlteration.fragments : TableAlteration → List Fragment
  | .add definition => .code "ADD " :: definition.fragments
  | .modify definition => .code "MODIFY " :: definition.fragments
  | .drop column => [.code "DROP COLUMN ", .name column]
  | .change column definition =>
      .code "CHANGE COLUMN " :: .name column :: .code " " :: definition.fragments
  | .addUnique columns => .code "ADD " :: uniqueFragments columns

def AlterTable.fragments (alter : AlterTable) : List Fragment :=
  .code "ALTER TABLE " :: .name alter.table :: .code " " ::
    separated (alter.alterations.map TableAlteration.fragments)

def DropTable.fragments (drop : DropTable) : List Fragment :=
  .code "DROP TABLE " :: (if drop.ifExists then [.code "IF EXISTS "] else []) ++
    [.name drop.table]

namespace Statement

def fragments : Statement → List Fragment
  | .select statement => statement.fragments
  | .insert statement => statement.fragments
  | .update statement => statement.fragments
  | .delete statement => statement.fragments
  | .createTable statement => statement.fragments
  | .alterTable statement => statement.fragments
  | .dropTable statement => statement.fragments

/-- The text of a statement; it fails where a name cannot be quoted. -/
def toSql (statement : Statement) : Except SqlError String :=
  (Fragment.texts statement.fragments).map String.ofList

end Statement

end SqlScribe
