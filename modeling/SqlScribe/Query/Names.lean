import SqlScribe.Identifier
import SqlScribe.Statement

/-!
# Names in a query

The names by which columns can be qualified: the query's own table, the aliases
of its joins, and every name that is in scope around the query.
-/

namespace SqlScribe

/-- The names that are in scope at a place of a query. -/
structure Names where
  /-- The name of the query's own table. -/
  primary : String
  /-- The aliases of joins that are in scope. -/
  aliases : List String
  /-- The names in scope around the query. -/
  enclosing : List String
deriving DecidableEq, Repr, Inhabited

namespace Names

/-- All names in scope, the query's own ones first. -/
def all (names : Names) : List String := names.primary :: names.aliases ++ names.enclosing

def knows (names : Names) (name : String) : Bool := names.all.contains name

/-- Resolves a column path; a path without qualifier belongs to `owner`. -/
def resolveIn (names : Names) (owner path : String) : Except SqlError ColumnRef := do
  let parsed ← ColumnPath.parse path
  match parsed.qualifier with
  | none => pure ⟨some owner, parsed.name⟩
  | some qualifier =>
      if names.knows qualifier then pure ⟨some qualifier, parsed.name⟩
      else throw (.unknownAlias qualifier)

/-- Resolves a column path; a path without qualifier belongs to the query's own table. -/
def resolve (names : Names) (path : String) : Except SqlError ColumnRef :=
  names.resolveIn names.primary path

end Names

end SqlScribe
