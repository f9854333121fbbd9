import SqlScribe.Proofs.ValidNames

/-!
# The row changes that are accepted

An operation on a row change gives SQL exactly if the judgement on the change
holds that belongs to the operation.  A change that can be updated can also be
inserted, whichever columns are excluded.

An UPDATE and a DELETE always have a condition, and it compares the identifier
column with one scalar: no statement of a row change concerns all rows.
-/

namespace SqlScribe

open Checked Lexis

namespace RowChange

variable {config : Config} {change : RowChange} {operation : RowOperation}
variable {excluded : List String}

/-- The operation on a change gives SQL. -/
def Accepted
    (config : Config) (change : RowChange) (operation : RowOperation) (excluded : List String) :
    Prop :=
  ∃ sql, (change.toSql config operation excluded).1 = .ok sql

/-- Whatever has a statement has a text. -/
theorem accepted_iff_compiled :
    change.Accepted config operation excluded ↔
      ∃ statement, Compiled config change excluded operation statement := by
  constructor
  · rintro ⟨sql, written⟩
    rcases tokens_of_toSql written with ⟨statement, compiled, -⟩
    exact ⟨statement, statement_eq_ok.1 compiled⟩
  · rintro ⟨statement, compiled⟩
    have request : (Request.row change operation excluded).statement config = .ok statement :=
      statement_eq_ok.2 compiled
    rcases Request.exists_toSql request with ⟨sql, -, written⟩
    exact ⟨sql, written⟩

theorem create_accepted_iff :
    change.Accepted config .create excluded ↔ change.Insertable config := by
  rw [accepted_iff_compiled]
  constructor
  · rintro ⟨_, compiled⟩
    cases compiled with
    | create insertable => exact insertable
  · exact fun insertable => ⟨_, .create insertable⟩

theorem update_accepted_iff :
    change.Accepted config .update excluded ↔ change.Updatable config := by
  rw [accepted_iff_compiled]
  constructor
  · rintro ⟨_, compiled⟩
    cases compiled with
    | update updatable given => exact updatable
  · intro updatable
    rcases updatable.id with ⟨id, given, -⟩
    exact ⟨_, .update updatable given⟩

theorem destroy_accepted_iff :
    change.Accepted config .destroy excluded ↔ change.Selectable config := by
  rw [accepted_iff_compiled]
  constructor
  · rintro ⟨_, compiled⟩
    cases compiled with
    | destroy selectable given => exact selectable
  · intro selectable
    rcases selectable.id with ⟨id, given, -⟩
    exact ⟨_, .destroy selectable given⟩

theorem upsert_accepted_iff :
    change.Accepted config .upsert excluded ↔ change.Upsertable config := by
  rw [accepted_iff_compiled]
  constructor
  · rintro ⟨_, compiled⟩
    cases compiled with
    | upsert upsertable row => exact upsertable
  · intro upsertable
    rcases List.exists_cons_of_ne_nil (insertedRow_ne_nil_iff.2 upsertable.nonempty) with
      ⟨first, rest, row⟩
    exact ⟨_, .upsert upsertable row⟩

/-- A row that can be updated can also be inserted: the same columns are written. -/
theorem Updatable.upsertable (updatable : change.Updatable config) : change.Upsertable config where
  table := updatable.table
  fields := updatable.fields
  id := by
    rcases updatable.id with ⟨id, given, identity⟩
    intro other same _
    rw [given, Option.some.injEq] at same
    exact ⟨updatable.key, same ▸ identity⟩
  nonempty := .inl updatable.nonempty

/-! ## The rows that a statement concerns -/

/-- The statement inserts one row, or it has the condition that selects the row of the change. -/
inductive ConcernsOneRow (config : Config) (change : RowChange) : Statement → Prop
  | insert (statement : Insert) : ConcernsOneRow config change (.insert statement)
  | update {statement : Update} {id : Json} (given : change.id = some id)
      (identity : id.IsIdentity) (selected : statement.condition = hasIdentity config id) :
      ConcernsOneRow config change (.update statement)
  | delete {statement : Delete} {id : Json} (given : change.id = some id)
      (identity : id.IsIdentity) (selected : statement.condition = hasIdentity config id) :
      ConcernsOneRow config change (.delete statement)

theorem Selectable.identity (selectable : change.Selectable config) {id : Json}
    (given : change.id = some id) : id.IsIdentity := by
  rcases selectable.id with ⟨other, same, identity⟩
  rw [given, Option.some.injEq] at same
  exact same ▸ identity

theorem concernsOneRow_of_statement {statement : Statement}
    (compiled : change.statement config operation excluded = .ok statement) :
    ConcernsOneRow config change statement := by
  cases statement_eq_ok.1 compiled with
  | create insertable => exact .insert _
  | update updatable given => exact .update given (updatable.identity given) rfl
  | destroy selectable given => exact .delete given (selectable.identity given) rfl
  | upsert upsertable row => exact .insert _

end RowChange

/--
Each operation accepts exactly the changes that its judgement describes; what
can be updated can be upserted, whatever is excluded; and every text is that of
a statement that concerns one row.
-/
theorem row_change_accepted_iff (config : Config) (change : RowChange) (excluded : List String) :
    (change.Accepted config .destroy excluded ↔ change.Selectable config) ∧
      (change.Accepted config .update excluded ↔ change.Updatable config) ∧
      (change.Accepted config .create excluded ↔ change.Insertable config) ∧
      (change.Accepted config .upsert excluded ↔
        change.Accepted config .create excluded ∧ (change.fields ≠ [] ∨ change.id ≠ none)) ∧
      (change.Accepted config .update excluded →
        ∀ others, change.Accepted config .upsert others) ∧
      ∀ operation sql, (change.toSql config operation excluded).1 = .ok sql →
        ∃ statement, change.statement config operation excluded = .ok statement ∧
          lex sql = .ok statement.tokens ∧ change.ConcernsOneRow config statement := by
  refine ⟨RowChange.destroy_accepted_iff, RowChange.update_accepted_iff,
    RowChange.create_accepted_iff, ?_, ?_, ?_⟩
  · rw [RowChange.upsert_accepted_iff, RowChange.create_accepted_iff]
    exact ⟨fun upsertable => ⟨upsertable.toInsertable, upsertable.nonempty⟩,
      fun ⟨insertable, nonempty⟩ => ⟨insertable, nonempty⟩⟩
  · intro updated others
    exact RowChange.upsert_accepted_iff.2 (RowChange.update_accepted_iff.1 updated).upsertable
  · intro operation sql written
    rcases RowChange.tokens_of_toSql written with ⟨statement, compiled, -, tokens⟩
    exact ⟨statement, compiled, tokens, RowChange.concernsOneRow_of_statement compiled⟩

/-- A counter that goes down by three, in a row that has an identifier. -/
def loweredCounter : RowChange :=
  { table := "counters", id := some (.string "k1"), fields := [("hits", .increment (-3))] }

/-- A configuration whose bound is negative: only its magnitude counts. -/
def countedDown : Config := { maxIncrement := -3 }

theorem row_change_accepted_iff_loweredCounter :
    loweredCounter.Accepted countedDown .upsert ["hits"] ∧
      ∃ sql statement, (loweredCounter.toSql countedDown .update []).1 = .ok sql ∧
        lex sql = .ok statement.tokens ∧ loweredCounter.ConcernsOneRow countedDown statement ∧
        statement = .update ⟨"counters", [⟨"hits", .increment (-3)⟩],
          RowChange.hasIdentity countedDown (.string "k1")⟩ := by
  have compiled : loweredCounter.statement countedDown .update [] =
      .ok (.update ⟨"counters", [⟨"hits", .increment (-3)⟩],
        RowChange.hasIdentity countedDown (.string "k1")⟩) := by cbv
  have accepted : loweredCounter.Accepted countedDown .update [] :=
    RowChange.accepted_iff_compiled.2 ⟨_, RowChange.statement_eq_ok.1 compiled⟩
  rcases row_change_accepted_iff countedDown loweredCounter [] with
    ⟨-, -, -, -, upserted, texts⟩
  rcases accepted with ⟨sql, written⟩
  rcases texts .update sql written with ⟨statement, same, tokens, concerns⟩
  rw [compiled, Except.ok.injEq] at same
  exact ⟨upserted ⟨sql, written⟩ _, sql, statement, written, tokens, concerns, same.symm⟩

end SqlScribe
