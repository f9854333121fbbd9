import SqlScribe.Proofs.ConstraintMap
import SqlScribe.Proofs.Injection

/-!
# Calls that build a row change

A row change is built by calls: for its identifier, for one column, or for
several columns one after another.  However the calls repeat columns, every
column is recorded once, where it was written first, with the value that was
written last.

The statements of a change that is built so name every column once: an INSERT
the identifier first, if no field is its column, and then the fields in their
order; an UPDATE the fields; an upsert those fields that it may overwrite.
-/

namespace SqlScribe

open Checked Lexis

/-! ## Writes that repeat names -/

namespace Entries

variable {α : Type}

/-- What is left of values that are written one after another. -/
def written (writes : List (String × α)) : Entries α :=
  writes.foldl (fun entries entry => entries.put entry.1 entry.2) []

/-- The value is the last one of the writes to this name. -/
def LastWritten (writes : List (String × α)) (name : String) (value : α) : Prop :=
  ∃ before after, writes = before ++ (name, value) :: after ∧ name ∉ keys after

theorem written_append_singleton (writes : List (String × α)) (entry : String × α) :
    written (writes ++ [entry]) = (written writes).put entry.1 entry.2 := by
  rw [written, List.foldl_append]
  rfl

/-- Names stand in the order in which they were written first. -/
theorem keys_written (writes : List (String × α)) :
    (written writes).keys = (keys writes).eraseDups := by
  induction writes using List.reverseRecOn with
  | nil => rfl
  | append_singleton writes entry step =>
      have names : keys (writes ++ [entry]) = keys writes ++ [entry.1] := List.map_append
      rw [written_append_singleton, keys_put, step, names, eraseDups_append_singleton]
      by_cases known : entry.1 ∈ keys writes <;> simp [known]

theorem lastWritten_append_singleton
    {writes : List (String × α)} {entry : String × α} {name : String} {value : α} :
    LastWritten (writes ++ [entry]) name value ↔
      if entry.1 = name then entry.2 = value else LastWritten writes name value := by
  constructor
  · rintro ⟨before, after, same, later⟩
    rcases List.eq_nil_or_concat after with rfl | ⟨after, last, rfl⟩
    · rcases List.append_inj_right' same rfl with ⟨⟩
      simp
    · rw [List.concat_eq_append] at same later
      rw [← List.cons_append, ← List.append_assoc] at same
      rcases List.append_inj' same rfl with ⟨rfl, ⟨⟩⟩
      have other : name ∉ keys after ∧ name ≠ entry.1 := by
        simpa [keys, and_comm] using later
      rw [if_neg (Ne.symm other.2)]
      exact ⟨before, after, rfl, other.1⟩
  · intro last
    split at last
    · rename_i same
      exact ⟨writes, [], by rw [← same, ← last], List.not_mem_nil⟩
    · rename_i other
      rcases last with ⟨before, after, rfl, later⟩
      refine ⟨before, after ++ [entry], by simp, ?_⟩
      simpa [keys, Ne.symm other] using later

theorem get?_written {writes : List (String × α)} {name : String} {value : α} :
    (written writes).get? name = some value ↔ LastWritten writes name value := by
  induction writes using List.reverseRecOn with
  | nil => simp [written, get?, LastWritten]
  | append_singleton writes entry step =>
      rw [written_append_singleton, get?_put, lastWritten_append_singleton, ← step]
      split <;> simp

/-- Where no name is repeated, the entries are what is found in them. -/
theorem mem_iff_get? {entries : Entries α} (distinct : entries.keys.Nodup)
    {name : String} {value : α} :
    (name, value) ∈ entries ↔ entries.get? name = some value := by
  refine ⟨fun member => ?_, mem_of_get?⟩
  have known : entries.get? name ≠ none :=
    mt get?_eq_none.1 (not_not.2 (List.mem_map_of_mem (f := Prod.fst) member))
  rcases Option.ne_none_iff_exists'.1 known with ⟨other, found⟩
  have same := List.inj_on_of_nodup_map distinct (mem_of_get? found) member rfl
  rw [found, (Prod.mk.inj same).2]

end Entries

/-! ## Calls -/

/-- A call that adds to a row change. -/
inductive RowCall where
  | id (identifier : Json)
  | set (column : String) (literal : Json)
  | increment (column : String) (delta : Int)
  | value (column : String) (written : WriteValue)
  | values (entries : List (String × WriteValue))
deriving DecidableEq, Repr

namespace RowCall

/-- The change after a call. -/
def run (change : RowChange) : RowCall → RowChange
  | .id identifier => { change with id := some identifier }
  | .set column literal => change.write column (.literal literal)
  | .increment column delta => change.write column (.increment delta)
  | .value column written => change.write column written
  | .values entries => change.writeAll entries

/-- What a call writes to which columns. -/
def writes : RowCall → List (String × WriteValue)
  | .id _ => []
  | .set column literal => [(column, .literal literal)]
  | .increment column delta => [(column, .increment delta)]
  | .value column written => [(column, written)]
  | .values entries => entries

/-- The identifier that a call gives. -/
def id? : RowCall → Option Json
  | .id identifier => some identifier
  | _ => none

end RowCall

namespace RowChange

variable {config : Config} {change : RowChange} {operation : RowOperation}
variable {excluded : List String} {table : String} {calls : List RowCall}

/-- The change that calls build, one after another. -/
def build (table : String) (calls : List RowCall) : RowChange :=
  calls.foldl RowCall.run { table }

theorem writeAll_eq (values : List (String × WriteValue)) :
    change.writeAll values =
      { change with
        fields := values.foldl (fun fields entry => fields.put entry.1 entry.2) change.fields } := by
  unfold writeAll
  induction values generalizing change with
  | nil => rfl
  | cons entry rest step => exact step

/-- A call writes its columns, and its identifier takes the place of an earlier one. -/
theorem run_eq (call : RowCall) :
    call.run change = { change.writeAll call.writes with id := call.id?.or change.id } := by
  cases call with
  | values entries => simp [RowCall.run, RowCall.writes, RowCall.id?, writeAll_eq]
  | _ => rfl

theorem build_append_singleton (call : RowCall) :
    build table (calls ++ [call]) = call.run (build table calls) := by
  rw [build, List.foldl_append]
  rfl

theorem fields_build :
    (build table calls).fields = Entries.written (calls.flatMap RowCall.writes) := by
  induction calls using List.reverseRecOn with
  | nil => rfl
  | append_singleton calls call step =>
      simp only [build_append_singleton, run_eq, writeAll_eq, step]
      simp [Entries.written]

theorem id_build : (build table calls).id = (calls.filterMap RowCall.id?).getLast? := by
  induction calls using List.reverseRecOn with
  | nil => rfl
  | append_singleton calls call step =>
      simp only [build_append_singleton, run_eq, step, List.filterMap_append]
      cases call <;> simp [RowCall.id?]

/--
A change that records calls has their last identifier, and every column that they
write once: in the order of the first writes, with the value of the last one.
-/
structure Records (change : RowChange) (calls : List RowCall) : Prop where
  id : change.id = (calls.filterMap RowCall.id?).getLast?
  distinct : change.fields.keys.Nodup
  order : change.fields.keys = (Entries.keys (calls.flatMap RowCall.writes)).eraseDups
  last : ∀ column value, (column, value) ∈ change.fields ↔
    Entries.LastWritten (calls.flatMap RowCall.writes) column value

theorem records_build : (build table calls).Records calls := by
  have order : (build table calls).fields.keys =
      (Entries.keys (calls.flatMap RowCall.writes)).eraseDups := by
    rw [fields_build, Entries.keys_written]
  have distinct : (build table calls).fields.keys.Nodup := order ▸ nodup_eraseDups _
  refine ⟨id_build, distinct, order, fun column value => ?_⟩
  rw [Entries.mem_iff_get? distinct, fields_build, Entries.get?_written]

example :
    (build "t" [.set "a" (.integer 1), .increment "b" 2, .id (.integer 7),
      .values [("c", .literal .null), ("a", .increment 3)]]) =
      ⟨"t", some (.integer 7),
        [("a", .increment 3), ("b", .increment 2), ("c", .literal .null)]⟩ := by
  decide

/-! ## Columns of statements -/

/-- An INSERT names every column of its row once, with a value for each. -/
structure InsertsColumns (config : Config) (change : RowChange) (insert : Insert) : Prop where
  columns : insert.columns =
    (if config.identifierKey ∈ change.fields.keys ∨ change.id = none then []
      else [config.identifierKey]) ++ change.fields.keys
  distinct : insert.columns.Nodup
  aligned : insert.values.length = insert.columns.length
  row : insert.columns.zip insert.values = insertedRow config change

/-- An UPDATE assigns every field once. -/
structure AssignsColumns (change : RowChange) (update : Update) : Prop where
  assignments : update.assignments = change.fields.map fun field => ⟨field.1, field.2.assigned⟩
  distinct : (update.assignments.map Assignment.column).Nodup

/-- The fields that an upsert may overwrite. -/
def overwritable (config : Config) (change : RowChange) (excluded : List String) :
    List (String × WriteValue) :=
  change.fields.filter fun field => field.1 ≠ config.identifierKey ∧ field.1 ∉ excluded

/-- For a row that is there, an upsert assigns what it may overwrite, or its first column to itself. -/
structure OverwritesColumns
    (config : Config) (change : RowChange) (excluded : List String) (insert : Insert) : Prop where
  nonempty : insert.onDuplicate ≠ []
  distinct : (insert.onDuplicate.map Assignment.column).Nodup
  assignments :
    insert.onDuplicate =
        (overwritable config change excluded).map (fun field => ⟨field.1, field.2.overwriting⟩) ∨
      overwritable config change excluded = [] ∧
        ∃ first, insert.columns.head? = some first ∧ insert.onDuplicate = [⟨first, .unchanged⟩]

/-- The statement of an operation names its columns as the change has them. -/
inductive NamesColumns (config : Config) (change : RowChange) (excluded : List String) :
    RowOperation → Statement → Prop
  | create {insert : Insert} (inserts : InsertsColumns config change insert)
      (plain : insert.onDuplicate = []) :
      NamesColumns config change excluded .create (.insert insert)
  | update {statement : Update} (assigns : AssignsColumns change statement) :
      NamesColumns config change excluded .update (.update statement)
  | destroy (statement : Delete) :
      NamesColumns config change excluded .destroy (.delete statement)
  | upsert {insert : Insert} (inserts : InsertsColumns config change insert)
      (overwrites : OverwritesColumns config change excluded insert) :
      NamesColumns config change excluded .upsert (.insert insert)

theorem insertsColumns_of_row (distinct : change.fields.keys.Nodup) {insert : Insert}
    (columns : insert.columns = (insertedRow config change).map Prod.fst)
    (values : insert.values = (insertedRow config change).map Prod.snd) :
    InsertsColumns config change insert where
  columns := columns.trans columns_insertedRow
  distinct := columns ▸ nodup_columns_insertedRow distinct
  aligned := by simp [columns, values]
  row := by rw [columns, values, ← List.unzip_fst, ← List.unzip_snd, List.zip_unzip]

theorem overwritesColumns_of_row (distinct : change.fields.keys.Nodup)
    {first : String × Json} {rest : List (String × Json)} {insert : Insert}
    (row : insertedRow config change = first :: rest)
    (columns : insert.columns = (insertedRow config change).map Prod.fst)
    (assignments : insert.onDuplicate =
      if (duplicateAssignments config excluded change.fields).isEmpty then
        [⟨first.1, .unchanged⟩]
      else duplicateAssignments config excluded change.fields) :
    OverwritesColumns config change excluded insert := by
  have overwritten : duplicateAssignments config excluded change.fields =
      (overwritable config change excluded).map fun field => ⟨field.1, field.2.overwriting⟩ :=
    duplicateAssignments_eq
  by_cases none : duplicateAssignments config excluded change.fields = []
  · rw [none, List.isEmpty_nil, if_pos rfl] at assignments
    refine ⟨?_, ?_, .inr ⟨?_, first.1, ?_, assignments⟩⟩
    · simp [assignments]
    · simp [assignments]
    · exact List.map_eq_nil_iff.1 (overwritten.symm.trans none)
    · simp [columns, row]
  · rw [if_neg (by simpa using none)] at assignments
    exact ⟨assignments ▸ none, assignments ▸ nodup_columns_duplicateAssignments distinct,
      .inl (assignments.trans overwritten)⟩

theorem namesColumns_of_statement (distinct : change.fields.keys.Nodup) {statement : Statement}
    (compiled : change.statement config operation excluded = .ok statement) :
    NamesColumns config change excluded operation statement := by
  cases statement_eq_ok.1 compiled with
  | create insertable => exact .create (insertsColumns_of_row distinct rfl rfl) rfl
  | update updatable given =>
      refine .update ⟨rfl, ?_⟩
      simpa [Entries.keys, Function.comp_def] using distinct
  | destroy selectable given => exact .destroy _
  | upsert upsertable row =>
      exact .upsert (insertsColumns_of_row distinct rfl rfl)
        (overwritesColumns_of_row distinct row rfl rfl)

end RowChange

/--
Calls are recorded without repeated columns, and the statements of the change
name exactly the recorded columns, each once.
-/
theorem row_calls_name_columns_once
    (config : Config) (table : String) (calls : List RowCall) (excluded : List String) :
    (RowChange.build table calls).Records calls ∧
      ∀ operation sql,
        ((RowChange.build table calls).toSql config operation excluded).1 = .ok sql →
        ∃ statement,
          (RowChange.build table calls).statement config operation excluded = .ok statement ∧
          lex sql = .ok statement.tokens ∧
          (RowChange.build table calls).NamesColumns config excluded operation statement := by
  have records : (RowChange.build table calls).Records calls := RowChange.records_build
  refine ⟨records, fun operation sql written => ?_⟩
  rcases RowChange.tokens_of_toSql written with ⟨statement, compiled, -, tokens⟩
  exact ⟨statement, compiled, tokens,
    RowChange.namesColumns_of_statement records.distinct compiled⟩

end SqlScribe
