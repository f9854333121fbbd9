import SqlScribe.Proofs.Named
import SqlScribe.Proofs.RowStatements
import SqlScribe.Proofs.TableStatements

/-!
# The names in changes of rows and tables

The statements of row changes and of table changes hold checked names only, and
the types of their columns come from descriptions of columns.
-/

namespace SqlScribe

open Checked

/-! ## Changes of rows -/

namespace RowChange

variable {property : String → Prop} {config : Config} {change : RowChange}

theorem named_hasIdentity (admitted : AdmitsIdentifiers property)
    (key : HasNameForm config.identifierKey) (id : Json) : (hasIdentity config id).Named property := by
  refine ⟨⟨?_, admitted.identifier (isIdentifier_iff.2 key)⟩, trivial⟩
  intro qualifier member
  cases member

/-- The columns of an inserted row are valid names. -/
theorem Insertable.hasNameForm_column (insertable : change.Insertable config)
    {column : String} (member : column ∈ (insertedRow config change).map Prod.fst) :
    HasNameForm column := by
  rcases List.mem_map.1 member with ⟨⟨_, value⟩, present, rfl⟩
  rcases mem_insertedRow.1 present with ⟨rfl, beside, given⟩ | ⟨written, stored, -⟩
  · exact (insertable.id value given beside).1
  · exact (insertable.fields _ stored).1

/-- The names of an INSERT are checked, also with assignments to columns of its row. -/
theorem named_insert (admitted : AdmitsIdentifiers property)
    (insertable : change.Insertable config) {assignments : List Assignment}
    (assigned : ∀ assignment ∈ assignments,
      assignment.column ∈ (insertedRow config change).map Prod.fst) :
    Insert.Named property ⟨change.table, (insertedRow config change).map Prod.fst,
      (insertedRow config change).map Prod.snd, assignments⟩ := by
  have column {name : String} (member : name ∈ (insertedRow config change).map Prod.fst) :
      property name :=
    admitted.identifier (isIdentifier_iff.2 (insertable.hasNameForm_column member))
  exact ⟨admitted.identifier (isIdentifier_iff.2 insertable.table), fun _ member => column member,
    fun assignment member => column (assigned assignment member)⟩

/-- Every name in the statement of a row change was checked. -/
theorem named_statement
    {operation : RowOperation} {excluded : List String} {statement : Statement}
    (admitted : AdmitsIdentifiers property)
    (compiled : change.statement config operation excluded = .ok statement) :
    statement.Named property := by
  cases statement_eq_ok.1 compiled with
  | create insertable => exact named_insert admitted insertable (by simp)
  | update updatable given =>
      refine ⟨admitted.identifier (isIdentifier_iff.2 updatable.table), ?_,
        named_hasIdentity admitted updatable.key _⟩
      intro assignment member
      rcases List.mem_map.1 member with ⟨field, present, rfl⟩
      exact admitted.identifier (isIdentifier_iff.2 (updatable.fields field present).1)
  | destroy selectable given =>
      exact ⟨admitted.identifier (isIdentifier_iff.2 selectable.table),
        named_hasIdentity admitted selectable.key _⟩
  | upsert upsertable row =>
      refine named_insert admitted upsertable.toInsertable fun assigned member => ?_
      split at member
      · rw [List.mem_singleton.1 member, row]
        exact List.mem_cons_self
      · rcases mem_duplicateAssignments.1 member with ⟨column, value, written, -, -, rfl⟩
        exact List.mem_map_of_mem (mem_insertedRow.2 (.inr ⟨value, written, rfl⟩))

end RowChange

/-! ## Changes of tables -/

namespace TableChange

variable {property : String → Prop} {change : TableChange}

theorem ColumnSpec.named_definition
    {name : String} (named : property name) (spec : ColumnSpec) :
    (spec.definition name).Named property :=
  ⟨named, spec, rfl⟩

theorem named_creation
    {ifNotExists : Bool} {create : CreateTable} (admitted : AdmitsIdentifiers property)
    (created : change.creation ifNotExists = .ok create) : create.Named property := by
  rcases creation_eq_ok.1 created with ⟨creatable, rfl⟩
  have columns : ∀ column ∈ change.columns, property column.1 := fun column member =>
    admitted.identifier (isIdentifier_iff.2 (creatable.names column member))
  refine ⟨admitted.identifier (isIdentifier_iff.2 creatable.table), ?_, ?_⟩
  · intro definition member
    rcases List.mem_map.1 member with ⟨column, present, rfl⟩
    exact ColumnSpec.named_definition (columns column present) column.2
  · intro name member
    rcases List.mem_map.1 member with ⟨column, present, rfl⟩
    exact columns column (List.mem_of_mem_filter present)

/-- The names of an operation are those of its entry. -/
theorem named_alters {entry : String × ColumnChange} {operation : TableAlteration}
    (admitted : AdmitsIdentifiers property) (valid : NamesValid entry)
    (alters : Alters entry operation) : operation.Named property := by
  have column := admitted.identifier (isIdentifier_iff.2 valid.column)
  cases alters with
  | add | modify => exact ColumnSpec.named_definition column _
  | drop => exact column
  | rename =>
      have target := admitted.identifier (isIdentifier_iff.2 (valid.newName rfl _ rfl))
      exact ⟨column, ColumnSpec.named_definition target _⟩

theorem named_altering {alter : AlterTable} (admitted : AdmitsIdentifiers property)
    (altered : change.altering = .ok alter) : alter.Named property := by
  have alterable := (exists_altering_iff.1 ⟨alter, altered⟩).1
  rcases operations_of_altering altered with ⟨table, operations, each, listed⟩
  refine ⟨table ▸ admitted.identifier (isIdentifier_iff.2 alterable.table), ?_⟩
  rw [listed]
  intro operation member
  rcases List.mem_append.1 member with compiled | gathered
  · rcases exists_of_forall₂ each operation compiled with ⟨entry, present, alters⟩
    exact named_alters admitted (alterable.entries entry present) alters
  · unfold uniqueClause at gathered
    split at gathered
    · cases gathered
    · rw [List.mem_singleton.1 gathered]
      intro column member
      rcases List.mem_filterMap.1 member with ⟨entry, present, unique⟩
      rcases uniqueTarget?_eq_some.1 unique with ⟨-, rfl⟩
      exact admitted.identifier (isIdentifier_iff.2 (alterable.entries entry present).target)

theorem named_dropping {ifExists : Bool} {drop : DropTable} (admitted : AdmitsIdentifiers property)
    (dropped : change.dropping ifExists = .ok drop) : property drop.table := by
  simp only [dropping, bind_eq_ok, pure_eq_ok, checkName_eq_ok] at dropped
  rcases dropped with ⟨_, ⟨table, rfl⟩, rfl⟩
  exact admitted.identifier table

/-- Every name in the statement of a table change was checked. -/
theorem named_statement
    {operation : TableOperation} {statement : Statement} (admitted : AdmitsIdentifiers property)
    (compiled : change.statement operation = .ok statement) : statement.Named property := by
  cases operation with
  | create | createIfMissing =>
      rcases map_eq_ok.1 compiled with ⟨_, created, rfl⟩
      exact named_creation admitted created
  | alter =>
      rcases map_eq_ok.1 compiled with ⟨_, altered, rfl⟩
      exact named_altering admitted altered
  | drop | dropIfExists =>
      rcases map_eq_ok.1 compiled with ⟨_, dropped, rfl⟩
      exact named_dropping admitted dropped

end TableChange

end SqlScribe
