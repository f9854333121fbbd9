import SqlScribe.Proofs.AliasNumbers
import SqlScribe.Proofs.Compile.Failure
import SqlScribe.Proofs.Injection

/-!
# Every name is a valid one

All names of a statement have the form that the database takes: those that
somebody wrote were checked, and generated aliases are short.

A name can be quoted if it has this form, so writing a statement never fails.
Compiling does not complain about quoting either, because all its checks refuse
what was written.
-/

namespace SqlScribe

open Compile
open Checked

/-! ## Checked names and generated aliases -/

theorem hasNameForm_admitted : AdmitsIdentifiers HasNameForm where
  identifier := isIdentifier_iff.1

theorem spelledAsName_admitted : Admitted SpelledAsName where
  identifier identifier := (isIdentifier_iff.1 identifier).spelled
  generated := spelledAsName_generatedAlias

/-! ## Changes refuse what is written -/

open Checked.Refuses

namespace RowChange

variable {config : Config} {change : RowChange}

theorem refuses_scalarId {id : Json} : Refuses (scalarId id) := by
  cases id with
  | null | array _ | object _ => exact raised trivial
  | _ => exact ok

theorem refuses_checkDelta {column : String} {delta : Int} :
    Refuses (checkDelta config column delta) := by
  unfold checkDelta
  split
  · exact raised trivial
  · exact ok

theorem refuses_rowCondition {operation : RowOperation} :
    Refuses (rowCondition config change operation) := by
  unfold rowCondition
  split
  · exact raised trivial
  · exact bind name fun _ => bind refuses_scalarId fun _ => ok

theorem refuses_assignment {column : String} {value : WriteValue} :
    Refuses (assignment config column value) := by
  cases value with
  | literal value => exact bind name fun _ => ok
  | increment delta => exact bind refuses_checkDelta fun _ => bind name fun _ => ok

theorem refuses_insertedFields {fields : List (String × WriteValue)} :
    Refuses (insertedFields config fields) := by
  induction fields with
  | nil => exact ok
  | cons field rest step =>
      rcases field with ⟨column, literal | delta⟩
      · exact bind name fun _ => bind ok fun _ => bind step fun _ => ok
      · exact bind name fun _ => bind (bind refuses_checkDelta fun _ => ok) fun _ =>
          bind step fun _ => ok

theorem refuses_insertedId : Refuses (insertedId config change) := by
  unfold insertedId
  split
  · exact ok
  · split
    · exact ok
    · exact bind name fun _ => bind refuses_scalarId fun _ => ok

theorem refuses_insertion : Refuses (insertion config change) :=
  bind refuses_insertedId fun _ => bind refuses_insertedFields fun _ => bind name fun _ => ok

theorem refuses_updating : Refuses (updating config change) :=
  bind refuses_rowCondition fun _ => bind name fun _ =>
    guarded trivial (bind (mapM fun _ => refuses_assignment) fun _ => ok)

theorem refuses_upsertion {excluded : List String} :
    Refuses (upsertion config change excluded) := by
  refine bind refuses_insertion fun insert => ?_
  dsimp only
  split
  · exact raised trivial
  · exact ok

/-- The statement of a row change is refused for what was written, if it is refused. -/
theorem refuses_statement {operation : RowOperation} {excluded : List String} :
    Refuses (change.statement config operation excluded) := by
  cases operation with
  | create => exact map refuses_insertion
  | update => exact map refuses_updating
  | destroy => exact map (bind refuses_rowCondition fun _ => bind name fun _ => ok)
  | upsert => exact map refuses_upsertion

end RowChange

namespace TableChange

variable {change : TableChange}

theorem refuses_checkColumns {used : List String} {columns : List (String × ColumnSpec)} :
    Refuses (checkColumns used columns) := by
  induction columns generalizing used with
  | nil => exact ok
  | cons column rest step =>
      exact bind name fun _ => guarded trivial step

theorem refuses_definitionOf {name : String} {change : ColumnChange} :
    Refuses (definitionOf name change) := by
  unfold definitionOf
  split
  · exact ok
  · exact raised trivial

theorem refuses_alteration {column : String} {change : ColumnChange} :
    Refuses (alteration column change) := by
  refine bind name fun _ => ?_
  split
  · exact ok
  · refine bind ?_ fun _ => ok
    unfold renamed
    split
    · exact raised trivial
    · exact bind name fun _ => bind refuses_definitionOf fun _ => ok
  · exact bind refuses_definitionOf fun _ => ok
  · exact bind refuses_definitionOf fun _ => ok

theorem refuses_creation {ifNotExists : Bool} : Refuses (change.creation ifNotExists) :=
  bind name fun _ => guarded trivial (bind refuses_checkColumns fun _ => ok)

theorem refuses_altering : Refuses change.altering :=
  bind name fun _ => guarded trivial (bind (mapM fun _ => refuses_alteration) fun _ => ok)

/-- The statement of a table change is refused for what was written, if it is refused. -/
theorem refuses_statement {operation : TableOperation} : Refuses (change.statement operation) := by
  cases operation with
  | create | createIfMissing => exact map refuses_creation
  | alter => exact map refuses_altering
  | drop | dropIfExists => exact map (bind name fun _ => ok)

end TableChange

/-! ## Requests -/

namespace Request

variable {config : Config} {request : Request}

/-- How many names of tables a request puts in use at most. -/
def nameCount : Request → Nat
  | .read query _ => query.nameCount
  | .row _ _ _ | .table _ _ => 1

/-- All names of the statement of a request of reasonable size have the form of a name. -/
theorem hasNameForm_statement {statement : Statement} (small : request.nameCount < 2 ^ 64)
    (compiled : request.statement config = .ok statement) : statement.Named HasNameForm := by
  cases request with
  | read query operation =>
      rcases map_eq_ok.1 compiled with ⟨select, selected, rfl⟩
      refine Query.named_adapted hasNameForm_admitted ?_ operation
      exact Query.named_of_aliases hasNameForm_admitted selected fun aliasName member =>
        (Query.numbered selected aliasName member).hasNameForm small
  | row change operation excluded => exact RowChange.named_statement hasNameForm_admitted compiled
  | table change operation => exact TableChange.named_statement hasNameForm_admitted compiled

/-- A request that has a statement has a text. -/
theorem exists_toSql {statement : Statement}
    (compiled : request.statement config = .ok statement) :
    ∃ sql, statement.toSql = .ok sql ∧ request.toSql config = .ok sql := by
  rcases Statement.toSql_eq_ok (named_statement quotable_admitted compiled) with ⟨sql, text, -⟩
  exact ⟨sql, text, by rw [toSql_eq, compiled]; exact text⟩

theorem statement_ne_unquotable {fault : QuotingFault} :
    request.statement config ≠ .error (.unquotable fault) := by
  intro failed
  cases request with
  | read query operation =>
      have refused : Fails (query.compileAt config 0 []) ⟨.empty, []⟩ (.unquotable fault) := by
        cases result : (query.statement config).1 with
        | ok select =>
            rw [statement, result] at failed
            cases failed
        | error cause =>
            rw [statement, result] at failed
            cases failed
            exact result
      exact Query.quotable_of_fails refused
  | row change operation excluded => exact RowChange.refuses_statement _ failed
  | table change operation => exact TableChange.refuses_statement _ failed

end Request

/--
Every name in the statement of a request has the form of a name, generated
aliases included.  Its text can therefore be written, and neither compiling nor
writing it ever complains about a name that cannot be quoted.

The bound is that of a machine with 64-bit addresses; it matters only for the
length of generated aliases.
-/
theorem request_names_valid {config : Config} {request : Request} :
    (∀ statement, request.statement config = .ok statement →
      statement.Named SpelledAsName ∧
        (request.nameCount < 2 ^ 64 → statement.Named HasNameForm) ∧
        ∃ sql, statement.toSql = .ok sql ∧ request.toSql config = .ok sql) ∧
      ∀ fault, request.statement config ≠ .error (.unquotable fault) ∧
        request.toSql config ≠ .error (.unquotable fault) := by
  refine ⟨fun statement compiled => ⟨?_, ?_, Request.exists_toSql compiled⟩, fun fault => ?_⟩
  · exact Request.named_statement spelledAsName_admitted compiled
  · exact fun small => Request.hasNameForm_statement small compiled
  · refine ⟨Request.statement_ne_unquotable, fun failed => ?_⟩
    cases compiled : request.statement config with
    | ok statement =>
        rcases Request.exists_toSql compiled with ⟨sql, -, written⟩
        cases failed.symm.trans written
    | error cause =>
        rw [Request.toSql_eq, compiled] at failed
        cases failed
        exact Request.statement_ne_unquotable compiled

theorem request_names_valid_followedPosts :
    ∃ statement, (Request.read followedPosts .first).statement {} = .ok statement ∧
      (Request.read followedPosts .first).nameCount < 2 ^ 64 ∧ statement.Named HasNameForm ∧
      ∃ sql, statement.toSql = .ok sql ∧ (Request.read followedPosts .first).toSql {} = .ok sql := by
  have compiled : (Request.read followedPosts .first).statement {} =
      .ok (.select (Query.adapted followedPostsSelect .first)) := by cbv
  have small : (Request.read followedPosts .first).nameCount < 2 ^ 64 := by decide
  rcases request_names_valid.1 _ compiled with ⟨-, named, text⟩
  exact ⟨_, compiled, small, named small, text⟩

end SqlScribe
