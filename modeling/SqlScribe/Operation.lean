/-!
# What a statement does

The operations that each family of statements offers, with the names under
which they appear in events and messages.
-/

namespace SqlScribe

/-- The ways to read rows. -/
inductive ReadOperation where
  | find
  | first
  | count
deriving DecidableEq, Repr, Inhabited

def ReadOperation.name : ReadOperation → String
  | .find => "find"
  | .first => "first"
  | .count => "count"

/-- The ways to change the rows of a table. -/
inductive RowOperation where
  | create
  | update
  | destroy
  | upsert
deriving DecidableEq, Repr, Inhabited

def RowOperation.name : RowOperation → String
  | .create => "create"
  | .update => "update"
  | .destroy => "destroy"
  | .upsert => "upsert"

/-- The ways to change a table itself. -/
inductive TableOperation where
  | create
  | createIfMissing
  | alter
  | drop
  | dropIfExists
deriving DecidableEq, Repr, Inhabited

def TableOperation.name : TableOperation → String
  | .create => "create"
  | .createIfMissing => "create_if_missing"
  | .alter => "alter"
  | .drop => "drop"
  | .dropIfExists => "drop_if_exists"

/-- What an alteration does with one column. -/
inductive ColumnAction where
  | add
  | modify
  | drop
  | rename
deriving DecidableEq, Repr, Inhabited

/-- The word for an action in messages. -/
def ColumnAction.label : ColumnAction → String
  | .add => "Add"
  | .modify => "Modify"
  | .drop => "Drop"
  | .rename => "Rename"

end SqlScribe
