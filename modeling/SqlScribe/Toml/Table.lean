import SqlScribe.Toml.Value

/-!
# Writing into tables

A key is a path of names; all but the last one lead through tables, which are
made when they are missing.  What may be written depends on how the tables on
the way were opened: a header leads through every table that was not written as
a value, and a key only through tables that no header has opened.
-/

namespace SqlScribe.Toml

/-- A key: the names that lead to a table, and a name in that table. -/
structure Key where
  path : List String
  name : String
deriving DecidableEq, Repr, Inhabited

/-- The names of a key, at least one. -/
def Key.names (key : Key) : List String := key.path ++ [key.name]

/-- Whether a table that was opened one way may be led through another way. -/
def Opening.admits : (opened way : Opening) → Bool
  | .inline, _ => false
  | .header, .dotted => false
  | _, _ => true

section Walk

variable (way : Opening) (change : Opening → Members → Except Fault Members)

/--
Changes the table at the end of a path.  The change is told how that table was
opened; a missing table is made, and an array of tables stands for its last one.
-/
def alter (opened : Opening) (table : Members) : (path : List String) → Except Fault Members
  | [] => change opened table
  | name :: path =>
      match table.get? name with
      | none => do
          pure (table.put name (.table way (← alter way [] path)))
      | some (.table inner members) =>
          if inner.admits way then do
            pure (table.put name (.table inner (← alter inner members path)))
          else .error (.repeatedKey name)
      | some (.tables before last) => do
          pure (table.put name (.tables before (← alter .header last path)))
      | some _ => .error (.notExtensible name)

end Walk

/-- Adds a value under a name that is free. -/
def addMember (name : String) (value : Value) (table : Members) : Except Fault Members :=
  match table.get? name with
  | none => .ok (table.put name value)
  | some _ => .error (.repeatedKey name)

/--
Writes a value under a key.  A key of several names leads to a table that only
keys have opened, and a key of one name stands in the table that is open.
-/
def assign (key : Key) (value : Value) (table : Members) : Except Fault Members :=
  alter .dotted
    (fun opened members =>
      if (opened == .dotted) == !key.path.isEmpty then addMember key.name value members
      else .error (.repeatedKey key.name))
    .header table key.path

/-- Opens the table of a header, which may be there already if headers of other tables led to it. -/
def openTable (key : Key) (file : Members) : Except Fault Members :=
  alter .passage
    (fun _ members =>
      match members.get? key.name with
      | none => .ok (members.put key.name (.table .header []))
      | some (.table .passage inner) => .ok (members.put key.name (.table .header inner))
      | some _ => .error (.repeatedKey key.name))
    .header file key.path

/-- Opens another table of an array of tables. -/
def openItem (key : Key) (file : Members) : Except Fault Members :=
  alter .passage
    (fun _ members =>
      match members.get? key.name with
      | none => .ok (members.put key.name (.tables [] []))
      | some (.tables before last) => .ok (members.put key.name (.tables (before ++ [last]) []))
      | some _ => .error (.repeatedKey key.name))
    .header file key.path

/-- Writes a value under a key into the table that was opened at a place in the file. -/
def assignAt
    (place : List String) (key : Key) (value : Value) (file : Members) : Except Fault Members :=
  alter .passage (fun _ members => assign key value members) .header file place

end SqlScribe.Toml
