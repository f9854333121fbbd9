import SqlScribe.Operation
import SqlScribe.StatementKind
import SqlScribe.Text.Bytes

/-!
# Events

What the compilers and the sessions report while they work.  Each event is a
value; its level, its target, its message and its fields are read off it.
-/

namespace SqlScribe

/-- How much an event matters. -/
inductive EventLevel where
  | trace
  | debug
  | warn
  | error
deriving DecidableEq, Repr

def EventLevel.name : EventLevel → String
  | .trace => "TRACE"
  | .debug => "DEBUG"
  | .warn => "WARN"
  | .error => "ERROR"

/-- The operation of a compiled statement, with its family. -/
inductive CompiledOperation where
  | read (operation : ReadOperation)
  | row (operation : RowOperation)
  | table (operation : TableOperation)
deriving DecidableEq, Repr

/-- One report. -/
inductive Event where
  /-- A query passes over rows without a limit, so that its LIMIT clause returns none. -/
  | skipWithoutLimit (table : String) (skip : Nat)
  /-- A statement on a table was compiled. -/
  | compiled (operation : CompiledOperation) (table sql : String)
  /-- A statement is about to run; `sql` is the text to show. -/
  | executing (kind : StatementKind) (sql : String)
  /-- A statement ran. -/
  | finished (kind : StatementKind) (affectedRows rows : Option Nat)
  /-- A statement failed. -/
  | failed (kind : StatementKind) (sql cause : String)
deriving DecidableEq, Repr

namespace Event

def level : Event → EventLevel
  | .skipWithoutLimit _ _ => .warn
  | .compiled _ _ _ => .trace
  | .executing _ _ | .finished _ _ _ => .debug
  | .failed _ _ _ => .error

/-- The part of the program that reports. -/
def target : Event → String
  | .skipWithoutLimit _ _ | .compiled _ _ _ => "crudsql.compile"
  | .executing _ _ | .finished _ _ _ | .failed _ _ _ => "crudsql.sql"

def message : Event → String
  | .skipWithoutLimit _ _ => "skip without limit renders LIMIT skip, 0 and matches no rows"
  | .compiled (.read _) _ _ => "compiled select"
  | .compiled (.row _) _ _ => "compiled write"
  | .compiled (.table _) _ _ => "compiled ddl"
  | .executing _ _ => "executing statement"
  | .finished _ _ _ => "statement finished"
  | .failed _ _ _ => "statement failed"

/-- A count that may be missing. -/
def countText : Option Nat → String
  | none => "None"
  | some count => "Some(" ++ toString count ++ ")"

def CompiledOperation.name : CompiledOperation → String
  | .read operation => operation.name
  | .row operation => operation.name
  | .table operation => operation.name

/-- The fields of an event in alphabetical order. -/
def fields : Event → List (String × String)
  | .skipWithoutLimit table skip => [("skip", toString skip), ("table", table)]
  | .compiled operation table sql =>
      [("op", CompiledOperation.name operation), ("sql", sql), ("table", table)]
  | .executing kind sql => [("kind", kind.name), ("sql", sql)]
  | .finished kind affectedRows rows =>
      [("affected_rows", countText affectedRows), ("kind", kind.name)] ++
        (rows.map fun count => ("rows", toString count)).toList
  | .failed kind sql cause => [("error", cause), ("kind", kind.name), ("sql", sql)]

/--
The text of a statement for an event: all of it if it fits the limit, otherwise
the longest beginning that does, and three dots.
-/
def shownSql (limit : Option Nat) (sql : String) : String :=
  match limit with
  | none => sql
  | some limit =>
      if Text.byteLength sql.toList ≤ limit then sql
      else String.ofList (Text.fit limit sql.toList ++ ['.', '.', '.'])

end Event

end SqlScribe
