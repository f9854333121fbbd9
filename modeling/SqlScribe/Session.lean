import SqlScribe.Query.Compile

/-!
# Running statements

A session runs the text of statements on a database and reports what happens.
The database is given by a function that runs one statement; it lives in a
monad of its own, so that it can be a connection, or a list of prepared answers
together with the statements that were sent.

A query that does not compile is never sent.
-/

namespace SqlScribe

/-- A row of a result, by output name. -/
abbrev Row := List (String × Json)

/-- What a database says about a statement that it ran. -/
structure Outcome where
  insertedId : Option Json := none
  affectedRows : Option Nat := none
  rows : Option (List Row) := none
deriving DecidableEq, Repr, Inhabited

/-- The rows of a result; a statement that returns none has an empty list of them. -/
def Outcome.allRows (outcome : Outcome) : List Row := outcome.rows.getD []

/-- A function that runs one statement and gives its outcome, or the text of a failure. -/
abbrev Runner (m : Type → Type) := String → m (Except String Outcome)

namespace Session

variable {m : Type → Type} [Monad m]

/-- Runs a statement; the events show at most `shownBytes` bytes of it. -/
def execute (run : Runner m) (shownBytes : Option Nat) (sql : String) :
    m (Except SqlError Outcome × List Event) := do
  let kind := StatementKind.ofSql sql
  let shown := Event.shownSql shownBytes sql
  match ← run sql with
  | .ok outcome =>
      let finished := .finished kind outcome.affectedRows (outcome.rows.map List.length)
      pure (.ok outcome, [.executing kind shown, finished])
  | .error cause =>
      pure (.error (.queryFailed sql cause),
        [.executing kind shown, .failed kind shown cause])

/-- Compiles a query for an operation and runs it. -/
def fetch (run : Runner m) (config : Config) (query : Query) (operation : ReadOperation) :
    m (Except SqlError Outcome × List Event) := do
  match query.toSql config operation with
  | (.error cause, events) => pure (.error cause, events)
  | (.ok sql, events) =>
      let (outcome, more) ← execute run config.logMaxSqlLength sql
      pure (outcome, events ++ more)

/-- All rows of a query. -/
def fetchAll (run : Runner m) (config : Config) (query : Query) :
    m (Except SqlError (List Row) × List Event) := do
  let (outcome, events) ← fetch run config query .find
  pure (outcome.map Outcome.allRows, events)

/-- The first row of a query, if it has any. -/
def fetchFirst (run : Runner m) (config : Config) (query : Query) :
    m (Except SqlError (Option Row) × List Event) := do
  let (outcome, events) ← fetch run config query .first
  pure (outcome.map fun result => result.allRows.head?, events)

end Session

/-- Answers that are prepared in advance, and the statements that were sent so far. -/
structure Rehearsal where
  answers : List (Except String Outcome)
  sent : List String

namespace Rehearsal

/-- Notes a statement and gives the next answer, or an empty outcome when none is left. -/
def answer : Runner (StateM Rehearsal) := fun sql => do
  let state ← get
  match state.answers with
  | [] =>
      set ({ state with sent := state.sent ++ [sql] } : Rehearsal)
      pure (.ok {})
  | next :: rest =>
      set (⟨rest, state.sent ++ [sql]⟩ : Rehearsal)
      pure next

end Rehearsal

end SqlScribe
