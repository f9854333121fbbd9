import SqlScribe.Proofs.Identifier
import SqlScribe.RowChange

/-!
# Statements of row changes

When each operation on a row change succeeds, and with which statement.  An
INSERT needs columns that can be written; an UPDATE or a DELETE needs an
identifier that selects its row.  The judgements `Insertable`, `Upsertable`,
`Selectable` and `Updatable` say so without a word about the order of checks.

The statements list the fields of the change in their order: with the values
to insert, with what is assigned to them, or with what becomes of them in a row
that is there already.  `RowChange.statement_eq_ok` says so for every operation.
-/

namespace SqlScribe

open Checked

/-! ## What can be written -/

/-- The increment is not larger in magnitude than the configured bound. -/
def Config.Admits (config : Config) (delta : Int) : Prop :=
  delta.natAbs ≤ config.maxIncrement.natAbs

/-- A scalar other than null, as an identifier of a row has to be. -/
inductive Json.IsIdentity : Json → Prop
  | truth {value : Bool} : IsIdentity (.bool value)
  | number {value : JsonNumber} : IsIdentity (.number value)
  | text {value : String} : IsIdentity (.string value)

namespace WriteValue

/-- The value that an INSERT writes to a column; an increment counts from nothing. -/
def inserted : WriteValue → Json
  | .literal value => value
  | .increment delta => .integer delta

/-- What an UPDATE assigns to a column. -/
def assigned : WriteValue → AssignedValue
  | .literal value => .literal value
  | .increment delta => .increment delta

/-- What becomes of a column in a row that is there already. -/
def overwriting : WriteValue → AssignedValue
  | .literal _ => .inserted
  | .increment delta => .increment delta

/-- An increment is within the bound; any value is. -/
def Within (config : Config) : WriteValue → Prop
  | .literal _ => True
  | .increment delta => config.Admits delta

end WriteValue

namespace RowChange

/-- The column has a valid name, and an increment of it is within the bound. -/
def Writable (config : Config) (field : String × WriteValue) : Prop :=
  HasNameForm field.1 ∧ field.2.Within config

/-- The change selects its row: by a scalar in the identifier column of its table. -/
structure Selectable (config : Config) (change : RowChange) : Prop where
  table : HasNameForm change.table
  key : HasNameForm config.identifierKey
  id : ∃ id, change.id = some id ∧ id.IsIdentity

/-- The change selects its row and has something to write there. -/
structure Updatable (config : Config) (change : RowChange) : Prop
    extends Selectable config change where
  nonempty : change.fields ≠ []
  fields : ∀ field ∈ change.fields, Writable config field

/-- All columns of the row can be written, the identifier included if it stands beside the fields. -/
structure Insertable (config : Config) (change : RowChange) : Prop where
  table : HasNameForm change.table
  fields : ∀ field ∈ change.fields, Writable config field
  id : ∀ id, change.id = some id → config.identifierKey ∉ change.fields.keys →
    HasNameForm config.identifierKey ∧ id.IsIdentity

/-- All columns of the row can be written, and there is one. -/
structure Upsertable (config : Config) (change : RowChange) : Prop
    extends Insertable config change where
  nonempty : change.fields ≠ [] ∨ change.id ≠ none

variable {config : Config} {change : RowChange} {excluded : List String}

/-! ## Checks -/

theorem checkDelta_eq_ok {column : String} {delta accepted : Int} :
    checkDelta config column delta = .ok accepted ↔ config.Admits delta ∧ accepted = delta := by
  unfold checkDelta Config.Admits
  split
  · rename_i large
    simp [Nat.not_le.2 large]
  · rename_i small
    simp [Nat.not_lt.1 small, eq_comm]

theorem scalarId_eq_ok {id accepted : Json} :
    scalarId id = .ok accepted ↔ id.IsIdentity ∧ accepted = id := by
  constructor
  · intro checked
    cases id <;> cases checked <;> exact ⟨by constructor, rfl⟩
  · rintro ⟨identity, rfl⟩
    cases identity <;> rfl

/-- The condition that the identifier column has this value. -/
def hasIdentity (config : Config) (id : Json) : Expr :=
  .compare (.column ⟨none, config.identifierKey⟩) .equal (.literal id)

theorem rowCondition_eq_ok {operation : RowOperation} {condition : Expr} :
    rowCondition config change operation = .ok condition ↔
      HasNameForm config.identifierKey ∧
        ∃ id, change.id = some id ∧ id.IsIdentity ∧ condition = hasIdentity config id := by
  unfold rowCondition
  split
  · rename_i missing
    simp [missing]
  · rename_i id given
    simp only [bind_eq_ok, pure_eq_ok, checkName_eq_ok_iff, scalarId_eq_ok, given,
      Option.some.injEq, exists_eq_left']
    constructor
    · rintro ⟨_, ⟨key, rfl⟩, _, ⟨identity, rfl⟩, rfl⟩
      exact ⟨key, identity, rfl⟩
    · rintro ⟨key, identity, rfl⟩
      exact ⟨_, ⟨key, rfl⟩, _, ⟨identity, rfl⟩, rfl⟩

/-! ## Columns and what is written to them -/

/-- An assignment gives the column what is written to it. -/
theorem assignment_eq_ok {column : String} {value : WriteValue} {assigned : Assignment} :
    assignment config column value = .ok assigned ↔
      Writable config (column, value) ∧ assigned = ⟨column, value.assigned⟩ := by
  cases value with
  | literal value =>
      simp only [assignment, bind_eq_ok, pure_eq_ok, checkName_eq_ok_iff]
      constructor
      · rintro ⟨_, ⟨name, rfl⟩, rfl⟩
        exact ⟨⟨name, trivial⟩, rfl⟩
      · rintro ⟨⟨name, -⟩, rfl⟩
        exact ⟨column, ⟨name, rfl⟩, rfl⟩
  | increment delta =>
      simp only [assignment, bind_eq_ok, pure_eq_ok, checkName_eq_ok_iff, checkDelta_eq_ok]
      constructor
      · rintro ⟨_, ⟨bounded, rfl⟩, _, ⟨name, rfl⟩, rfl⟩
        exact ⟨⟨name, bounded⟩, rfl⟩
      · rintro ⟨⟨name, bounded⟩, rfl⟩
        exact ⟨delta, ⟨bounded, rfl⟩, column, ⟨name, rfl⟩, rfl⟩

theorem insertedValue_eq_ok {column : String} {value : WriteValue} {written : Json} :
    insertedValue config column value = .ok written ↔
      value.Within config ∧ written = value.inserted := by
  cases value with
  | literal value => simp [insertedValue, WriteValue.Within, WriteValue.inserted, eq_comm]
  | increment delta =>
      simp [insertedValue, WriteValue.Within, WriteValue.inserted, checkDelta_eq_ok, and_assoc]

/-- The fields of an INSERT keep their columns, with the values to insert. -/
theorem insertedFields_eq_ok {fields : List (String × WriteValue)} {row : List (String × Json)} :
    insertedFields config fields = .ok row ↔
      (∀ field ∈ fields, Writable config field) ∧
        row = fields.map fun field => (field.1, field.2.inserted) := by
  induction fields generalizing row with
  | nil => simp [insertedFields, eq_comm]
  | cons field rest step =>
      rcases field with ⟨column, value⟩
      simp only [insertedFields, bind_eq_ok, pure_eq_ok, checkName_eq_ok_iff, insertedValue_eq_ok,
        step, List.forall_mem_cons, List.map_cons]
      constructor
      · rintro ⟨_, ⟨name, rfl⟩, _, ⟨within, rfl⟩, _, ⟨others, rfl⟩, rfl⟩
        exact ⟨⟨⟨name, within⟩, others⟩, rfl⟩
      · rintro ⟨⟨⟨name, within⟩, others⟩, rfl⟩
        exact ⟨column, ⟨name, rfl⟩, _, ⟨within, rfl⟩, _, ⟨others, rfl⟩, rfl⟩

/-- The columns of an INSERT with their values. -/
def insertedRow (config : Config) (change : RowChange) : List (String × Json) :=
  (if config.identifierKey ∈ change.fields.keys then []
    else (change.id.map fun id => (config.identifierKey, id)).toList) ++
    change.fields.map fun field => (field.1, field.2.inserted)

/-- An INSERT writes the identifier beside the fields, unless a field does, and every field. -/
theorem mem_insertedRow {column : String} {value : Json} :
    (column, value) ∈ insertedRow config change ↔
      (column = config.identifierKey ∧ config.identifierKey ∉ change.fields.keys ∧
          change.id = some value) ∨
        ∃ written, (column, written) ∈ change.fields ∧ value = written.inserted := by
  have fields : (column, value) ∈ change.fields.map (fun field => (field.1, field.2.inserted)) ↔
      ∃ written, (column, written) ∈ change.fields ∧ value = written.inserted := by
    simp only [List.mem_map, Prod.mk.injEq, Prod.exists]
    constructor
    · rintro ⟨_, written, member, rfl, rfl⟩
      exact ⟨written, member, rfl⟩
    · rintro ⟨written, member, rfl⟩
      exact ⟨column, written, member, rfl, rfl⟩
  rw [insertedRow, List.mem_append, fields]
  refine or_congr_left ?_
  by_cases written : config.identifierKey ∈ change.fields.keys
  · simp [written]
  · cases change.id <;> simp [written, eq_comm]

/-- The identifier comes first, unless a field names it. -/
theorem columns_insertedRow :
    (insertedRow config change).map Prod.fst =
      (if config.identifierKey ∈ change.fields.keys ∨ change.id = none then []
        else [config.identifierKey]) ++ change.fields.keys := by
  have fields : (change.fields.map fun field => (field.1, field.2.inserted)).map Prod.fst =
      change.fields.keys := by
    simp [Entries.keys]
  rw [insertedRow, List.map_append, fields]
  by_cases written : config.identifierKey ∈ change.fields.keys
  · simp [written]
  · cases change.id <;> simp [written]

theorem nodup_columns_insertedRow (distinct : change.fields.keys.Nodup) :
    ((insertedRow config change).map Prod.fst).Nodup := by
  rw [columns_insertedRow]
  split
  · exact distinct
  · rename_i beside
    exact List.nodup_cons.2 ⟨fun written => beside (.inl written), distinct⟩

theorem insertedRow_ne_nil_iff :
    insertedRow config change ≠ [] ↔ change.fields ≠ [] ∨ change.id ≠ none := by
  rw [insertedRow, ne_eq, List.append_eq_nil_iff, List.map_eq_nil_iff]
  cases change.fields with
  | nil => cases change.id <;> simp
  | cons field rest => simp

theorem insertedId_eq_ok {id : List (String × Json)} :
    insertedId config change = .ok id ↔
      (∀ id, change.id = some id → config.identifierKey ∉ change.fields.keys →
        HasNameForm config.identifierKey ∧ id.IsIdentity) ∧
        id = if config.identifierKey ∈ change.fields.keys then []
          else (change.id.map fun id => (config.identifierKey, id)).toList := by
  unfold insertedId
  split
  · rename_i missing
    simp [missing, eq_comm]
  · rename_i given
    by_cases written : config.identifierKey ∈ change.fields.keys
    · simp [written, eq_comm]
    · simp only [written, if_false, given, bind_eq_ok, pure_eq_ok, checkName_eq_ok_iff,
        scalarId_eq_ok, Option.some.injEq, forall_eq', not_false_eq_true, forall_const,
        Option.map_some, Option.toList_some]
      constructor
      · rintro ⟨_, ⟨key, rfl⟩, _, ⟨identity, rfl⟩, rfl⟩
        exact ⟨⟨key, identity⟩, rfl⟩
      · rintro ⟨⟨key, identity⟩, rfl⟩
        exact ⟨_, ⟨key, rfl⟩, _, ⟨identity, rfl⟩, rfl⟩

/-! ## Statements -/

/-- An INSERT lists the columns of the row of its change, and their values. -/
theorem insertion_eq_ok {insert : Insert} :
    insertion config change = .ok insert ↔
      change.Insertable config ∧
        insert = ⟨change.table, (insertedRow config change).map Prod.fst,
          (insertedRow config change).map Prod.snd, []⟩ := by
  simp only [insertion, bind_eq_ok, pure_eq_ok, checkName_eq_ok_iff, insertedId_eq_ok,
    insertedFields_eq_ok]
  constructor
  · rintro ⟨_, ⟨id, rfl⟩, _, ⟨fields, rfl⟩, _, ⟨table, rfl⟩, rfl⟩
    exact ⟨⟨table, fields, id⟩, rfl⟩
  · rintro ⟨⟨table, fields, id⟩, rfl⟩
    exact ⟨_, ⟨id, rfl⟩, _, ⟨fields, rfl⟩, _, ⟨table, rfl⟩, rfl⟩

/-- The fields of an UPDATE keep their columns, with what is assigned to them. -/
theorem assignments_eq_ok {fields : List (String × WriteValue)} {assignments : List Assignment} :
    fields.mapM (fun (column, value) => assignment config column value) = .ok assignments ↔
      (∀ field ∈ fields, Writable config field) ∧
        assignments = fields.map fun field => ⟨field.1, field.2.assigned⟩ := by
  simp only [mapM_eq_ok, assignment_eq_ok, Prod.eta, List.forall₂_and_left, forall₂_eq_map_iff]

/-- An UPDATE assigns what is written to the columns of its change, in order. -/
theorem updating_eq_ok {update : Update} :
    updating config change = .ok update ↔
      change.Updatable config ∧
        ∃ id, change.id = some id ∧
          update = ⟨change.table,
            change.fields.map fun field => ⟨field.1, field.2.assigned⟩,
            hasIdentity config id⟩ := by
  simp only [updating, bind_eq_ok, checkName_eq_ok_iff, rowCondition_eq_ok]
  constructor
  · rintro ⟨_, ⟨key, id, given, identity, rfl⟩, _, ⟨table, rfl⟩, updated⟩
    split at updated
    · simp at updated
    · rename_i nonempty
      simp only [bind_eq_ok, pure_eq_ok, assignments_eq_ok] at updated
      rcases updated with ⟨_, ⟨fields, rfl⟩, rfl⟩
      exact ⟨⟨⟨table, key, id, given, identity⟩, by simpa using nonempty, fields⟩, id, given, rfl⟩
  · rintro ⟨⟨⟨table, key, id, given, identity⟩, nonempty, fields⟩, _, same, rfl⟩
    rw [given] at same
    cases same
    refine ⟨_, ⟨key, id, given, identity, rfl⟩, _, ⟨table, rfl⟩, ?_⟩
    rw [if_neg (by simpa using nonempty)]
    simp only [bind_eq_ok, pure_eq_ok, assignments_eq_ok]
    exact ⟨_, ⟨fields, rfl⟩, rfl⟩

/-- A DELETE removes the row that its change selects. -/
theorem deletion_eq_ok {delete : Delete} :
    deletion config change = .ok delete ↔
      change.Selectable config ∧
        ∃ id, change.id = some id ∧ delete = ⟨change.table, hasIdentity config id⟩ := by
  simp only [deletion, bind_eq_ok, pure_eq_ok, checkName_eq_ok_iff, rowCondition_eq_ok]
  constructor
  · rintro ⟨_, ⟨key, id, given, identity, rfl⟩, _, ⟨table, rfl⟩, rfl⟩
    exact ⟨⟨table, key, id, given, identity⟩, id, given, rfl⟩
  · rintro ⟨⟨table, key, id, given, identity⟩, _, same, rfl⟩
    rw [given] at same
    cases same
    exact ⟨_, ⟨key, id, given, identity, rfl⟩, _, ⟨table, rfl⟩, rfl⟩

/-- The fields that may be overwritten, each with what becomes of its column. -/
theorem duplicateAssignments_eq {fields : List (String × WriteValue)} :
    duplicateAssignments config excluded fields =
      (fields.filter fun field => field.1 ≠ config.identifierKey ∧ field.1 ∉ excluded).map
        fun field => ⟨field.1, field.2.overwriting⟩ := by
  rw [duplicateAssignments]
  refine (congrArg (List.map _) (List.filter_congr fun field _ => ?_)).trans
    (List.map_congr_left fun field _ => ?_)
  · simp [beq_eq_decide]
  · rcases field with ⟨column, _ | _⟩ <;> rfl

/-- A written column that is neither the identifier nor excluded is overwritten. -/
theorem mem_duplicateAssignments {fields : List (String × WriteValue)} {assignment : Assignment} :
    assignment ∈ duplicateAssignments config excluded fields ↔
      ∃ column value, (column, value) ∈ fields ∧ column ≠ config.identifierKey ∧
        column ∉ excluded ∧ assignment = ⟨column, value.overwriting⟩ := by
  simp only [duplicateAssignments_eq, List.mem_map, List.mem_filter, decide_eq_true_eq,
    Prod.exists]
  constructor
  · rintro ⟨column, value, ⟨member, other, free⟩, rfl⟩
    exact ⟨column, value, member, other, free, rfl⟩
  · rintro ⟨column, value, member, other, free, rfl⟩
    exact ⟨column, value, ⟨member, other, free⟩, rfl⟩

theorem columns_duplicateAssignments {fields : Entries WriteValue} :
    (duplicateAssignments config excluded fields).map Assignment.column =
      fields.keys.filter fun column => column ≠ config.identifierKey ∧ column ∉ excluded := by
  rw [duplicateAssignments_eq, List.map_map, Entries.keys, List.filter_map]
  rfl

theorem nodup_columns_duplicateAssignments {fields : Entries WriteValue}
    (distinct : fields.keys.Nodup) :
    ((duplicateAssignments config excluded fields).map Assignment.column).Nodup := by
  rw [columns_duplicateAssignments]
  exact distinct.filter _

/-- An upsert is an INSERT with assignments for a row that is there already. -/
theorem upsertion_eq_ok {insert : Insert} :
    upsertion config change excluded = .ok insert ↔
      change.Upsertable config ∧
        ∃ first rest, insertedRow config change = first :: rest ∧
          insert = ⟨change.table, (insertedRow config change).map Prod.fst,
            (insertedRow config change).map Prod.snd,
            if (duplicateAssignments config excluded change.fields).isEmpty then
              [⟨first.1, .unchanged⟩]
            else duplicateAssignments config excluded change.fields⟩ := by
  simp only [upsertion, bind_eq_ok, insertion_eq_ok]
  constructor
  · rintro ⟨_, ⟨insertable, rfl⟩, upserted⟩
    cases row : insertedRow config change with
    | nil => simp [row] at upserted
    | cons first rest =>
        simp only [row, List.map_cons, pure_eq_ok] at upserted
        have written := insertedRow_ne_nil_iff.1 (row ▸ List.cons_ne_nil first rest)
        exact ⟨⟨insertable, written⟩, first, rest, rfl, upserted⟩
  · rintro ⟨⟨insertable, written⟩, first, rest, row, rfl⟩
    refine ⟨_, ⟨insertable, rfl⟩, ?_⟩
    simp only [row, List.map_cons, pure_eq_ok]

/-- What each operation compiles a change into, and which changes it does so with. -/
inductive Compiled (config : Config) (change : RowChange) (excluded : List String) :
    RowOperation → Statement → Prop
  | create (insertable : change.Insertable config) :
      Compiled config change excluded .create
        (.insert ⟨change.table, (insertedRow config change).map Prod.fst,
          (insertedRow config change).map Prod.snd, []⟩)
  | update {id : Json} (updatable : change.Updatable config) (given : change.id = some id) :
      Compiled config change excluded .update
        (.update ⟨change.table, change.fields.map fun field => ⟨field.1, field.2.assigned⟩,
          hasIdentity config id⟩)
  | destroy {id : Json} (selectable : change.Selectable config) (given : change.id = some id) :
      Compiled config change excluded .destroy (.delete ⟨change.table, hasIdentity config id⟩)
  | upsert {first : String × Json} {rest : List (String × Json)}
      (upsertable : change.Upsertable config) (row : insertedRow config change = first :: rest) :
      Compiled config change excluded .upsert
        (.insert ⟨change.table, (insertedRow config change).map Prod.fst,
          (insertedRow config change).map Prod.snd,
          if (duplicateAssignments config excluded change.fields).isEmpty then
            [⟨first.1, .unchanged⟩]
          else duplicateAssignments config excluded change.fields⟩)

theorem statement_eq_ok {operation : RowOperation} {statement : Statement} :
    change.statement config operation excluded = .ok statement ↔
      Compiled config change excluded operation statement := by
  constructor
  · intro compiled
    cases operation with
    | create =>
        rcases map_eq_ok.1 compiled with ⟨_, inserted, rfl⟩
        rcases insertion_eq_ok.1 inserted with ⟨insertable, rfl⟩
        exact .create insertable
    | update =>
        rcases map_eq_ok.1 compiled with ⟨_, updated, rfl⟩
        rcases updating_eq_ok.1 updated with ⟨updatable, id, given, rfl⟩
        exact .update updatable given
    | destroy =>
        rcases map_eq_ok.1 compiled with ⟨_, deleted, rfl⟩
        rcases deletion_eq_ok.1 deleted with ⟨selectable, id, given, rfl⟩
        exact .destroy selectable given
    | upsert =>
        rcases map_eq_ok.1 compiled with ⟨_, upserted, rfl⟩
        rcases upsertion_eq_ok.1 upserted with ⟨upsertable, first, rest, row, rfl⟩
        exact .upsert upsertable row
  · rintro (insertable | ⟨updatable, given⟩ | ⟨selectable, given⟩ | ⟨upsertable, row⟩)
    · exact map_eq_ok.2 ⟨_, insertion_eq_ok.2 ⟨insertable, rfl⟩, rfl⟩
    · exact map_eq_ok.2 ⟨_, updating_eq_ok.2 ⟨updatable, _, given, rfl⟩, rfl⟩
    · exact map_eq_ok.2 ⟨_, deletion_eq_ok.2 ⟨selectable, _, given, rfl⟩, rfl⟩
    · exact map_eq_ok.2 ⟨_, upsertion_eq_ok.2 ⟨upsertable, _, _, row, rfl⟩, rfl⟩

end RowChange

end SqlScribe
