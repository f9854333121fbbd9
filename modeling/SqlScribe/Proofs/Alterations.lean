import SqlScribe.Document.TableChange
import SqlScribe.Proofs.Document.Record
import SqlScribe.Proofs.ValidNames

/-!
# Alterations of tables

An entry of a table change can lack the definition or the new name that its
action needs, and then there is no ALTER TABLE.  An entry that was read from a
document never does, so what remains to be checked are names.
-/

namespace SqlScribe

open Checked

/-! ## Refusals -/

namespace TableChange

/-- An entry with what its action needs is refused for its names only. -/
theorem fault_of_alteration
    {column : String} {change : ColumnChange} {cause : SqlError} (complete : change.Complete)
    (refused : alteration column change = .error cause) :
    ∃ name fault, cause = .invalidIdentifier name fault := by
  have known : ∃ operation, Alters (column, change) operation := exists_alters_iff.2 complete
  rcases known with ⟨operation, alters⟩
  rw [alteration, bind_eq_error] at refused
  rcases refused with own | ⟨checked, -, refused⟩
  · exact ⟨column, fault_of_checkName own⟩
  · cases alters with
    | drop | add | modify => cases refused
    | @rename _ newName spec =>
        rcases bind_eq_error.1 refused with target | ⟨_, -, none⟩
        · rcases bind_eq_error.1 target with renamed | ⟨_, -, none⟩
          · exact ⟨newName, fault_of_checkName renamed⟩
          · cases none
        · cases none

variable {change : TableChange} {alter : AlterTable}

/-- If entries have what their actions need, a change is refused for its names or for no entry. -/
theorem fault_of_altering {cause : SqlError}
    (complete : ∀ entry ∈ change.changes, entry.2.Complete)
    (refused : change.altering = .error cause) :
    (∃ name fault, cause = .invalidIdentifier name fault) ∨
      cause = .emptyStatement (.alterChangesNothing change.table) := by
  rw [altering, bind_eq_error] at refused
  rcases refused with table | ⟨_, checked, refused⟩
  · exact .inl ⟨_, fault_of_checkName table⟩
  · rcases checkName_eq_ok.1 checked with ⟨-, rfl⟩
    split at refused
    · cases refused
      exact .inr rfl
    · rcases bind_eq_error.1 refused with entries | ⟨_, -, none⟩
      · rcases exists_of_mapM_eq_error entries with ⟨entry, member, refused⟩
        exact .inl (fault_of_alteration (complete entry member) refused)
      · cases none

theorem toSql_alter_eq_ok {sql : String} :
    (change.toSql .alter).1 = .ok sql ↔
      ∃ alter, change.altering = .ok alter ∧ (Statement.alterTable alter).toSql = .ok sql := by
  rw [toSql_eq_ok_iff]
  constructor
  · rintro ⟨_, compiled, text⟩
    rcases map_eq_ok.1 compiled with ⟨alter, altered, rfl⟩
    exact ⟨alter, altered, text⟩
  · rintro ⟨alter, altered, text⟩
    exact ⟨_, map_eq_ok.2 ⟨alter, altered, rfl⟩, text⟩

/-- An ALTER TABLE always has a text. -/
theorem text_of_altering (compiled : change.altering = .ok alter) :
    ∃ sql, (Statement.alterTable alter).toSql = .ok sql ∧ (change.toSql .alter).1 = .ok sql := by
  have written : (Request.table change .alter).statement {} = .ok (.alterTable alter) := by
    rw [Request.statement, statement, compiled]
    rfl
  exact Request.exists_toSql written

theorem refusal_of_altering {cause : SqlError} (refused : change.altering = .error cause) :
    (change.toSql .alter).1 = .error cause := by
  have request : (Request.table change .alter).toSql {} = .error cause := by
    rw [Request.toSql_eq, Request.statement, statement, refused]
    rfl
  exact request

end TableChange

/-! ## Documents -/

namespace Document

/-- What is read of an entry has what its action needs. -/
theorem complete_of_columnChange {document : Json} {change : ColumnChange}
    (read : columnChange document = .ok change) : change.Complete := by
  rcases bind_eq_ok.1 read with ⟨⟨action, newName, content, size, addons⟩, -, finished⟩
  cases action <;> cases newName <;> cases content <;> cases finished <;> constructor <;> simp

def tableChangeNames : RecordNames where
  required := ["table"]
  others := ["fields", "alter"]

theorem tableChangeNames_shapes : tableChangeNames.Shapes tableChangeShape :=
  ⟨rfl, rfl, by decide⟩

/-- A table change has the entries of its document, and none without such a member. -/
theorem changes_of_tableChange {document : Json} {change : TableChange}
    (read : tableChange document = .ok change) :
    match (tableChangeNames.members document).lookup "alter" with
    | none => change.changes = []
    | some value => entries columnChange value = .ok change.changes := by
  rcases tableChangeNames_shapes.record_members rfl read with ⟨distinct, written⟩
  refine field_of_members (fun draft member result set => ?_) distinct written
  rcases member with ⟨name, value⟩
  unfold setTableMember at set
  split at set
  all_goals
    simp only [map_eq_ok, Except.ok.injEq] at set
    rcases set with ⟨_, read, rfl⟩
    simp_all [Sets]

/-- The entries in the document of a table change, in document order. -/
def alteredMembers (document : Json) : List (String × Json) :=
  match (tableChangeNames.members document).lookup "alter" with
  | some (.object members) => members
  | _ => []

/-- An entry of a table change is a member of the document. -/
def ReadsEntry (member : String × Json) (entry : String × ColumnChange) : Prop :=
  entry.1 = member.1 ∧ columnChange member.2 = .ok entry.2

theorem entries_of_tableChange {document : Json} {change : TableChange}
    (read : tableChange document = .ok change) :
    List.Forall₂ ReadsEntry (alteredMembers document) change.changes := by
  have changes := changes_of_tableChange read
  unfold alteredMembers
  cases found : (tableChangeNames.members document).lookup "alter" with
  | none =>
      simp only [found] at changes
      rw [changes]
      exact .nil
  | some value =>
      simp only [found] at changes
      rcases entries_eq_ok.1 changes with ⟨members, rfl, each⟩
      exact each

end Document

/--
The ALTER TABLE of a change that was read from a document.  It has a text
exactly if the change has entries and all its names are valid: an entry never
lacks what its action needs.  The entries become operations in document order,
and those that keep a unique column are listed in a clause after them.
-/
theorem documented_alterations
    {document : Json} {change : TableChange} (read : Document.tableChange document = .ok change) :
    List.Forall₂ Document.ReadsEntry (Document.alteredMembers document) change.changes ∧
      (∀ entry ∈ change.changes, entry.2.Complete) ∧
      ((∃ sql, (change.toSql .alter).1 = .ok sql) ↔ change.Alterable) ∧
      (∀ cause, (change.toSql .alter).1 = .error cause →
        (∃ name fault, cause = .invalidIdentifier name fault) ∨
          cause = .emptyStatement (.alterChangesNothing change.table)) ∧
      ∀ sql, (change.toSql .alter).1 = .ok sql →
        ∃ alter operations,
          change.altering = .ok alter ∧
            (Statement.alterTable alter).toSql = .ok sql ∧
            alter.table = change.table ∧
            List.Forall₂ TableChange.Alters change.changes operations ∧
            alter.alterations = operations ++
              TableChange.uniqueClause (change.changes.filterMap TableChange.uniqueTarget?) := by
  have entries := Document.entries_of_tableChange read
  have complete : ∀ entry ∈ change.changes, entry.2.Complete := by
    intro entry member
    rcases exists_of_forall₂ entries entry member with ⟨_, -, -, described⟩
    exact Document.complete_of_columnChange described
  cases compiled : change.altering with
  | ok alter =>
      have alterable := (TableChange.exists_altering_iff.1 ⟨alter, compiled⟩).1
      rcases TableChange.text_of_altering compiled with ⟨sql, written, reached⟩
      rcases TableChange.operations_of_altering compiled with ⟨table, operations, each, listed⟩
      refine ⟨entries, complete, ⟨fun _ => alterable, fun _ => ⟨sql, reached⟩⟩, ?_, ?_⟩
      · intro cause refused
        cases reached.symm.trans refused
      · intro other same
        cases reached.symm.trans same
        exact ⟨alter, operations, rfl, written, table, each, listed⟩
  | error cause =>
      have refused := TableChange.refusal_of_altering compiled
      refine ⟨entries, complete, ⟨?_, fun alterable => ?_⟩, ?_, ?_⟩
      · rintro ⟨sql, reached⟩
        cases refused.symm.trans reached
      · rcases TableChange.exists_altering_iff.2 ⟨alterable, complete⟩ with ⟨alter, reached⟩
        cases compiled.symm.trans reached
      · intro other same
        cases refused.symm.trans same
        exact TableChange.fault_of_altering complete compiled
      · intro sql reached
        cases refused.symm.trans reached

/-- A change that renames one column of a table of pets, and others in all the other ways. -/
def retitledPets : TableChange where
  table := "pets"
  changes :=
    [("name", ⟨.rename, some "title", some { content := .text, addons := [.unique] }⟩),
      ("age", ⟨.drop, none, none⟩),
      ("chip", ⟨.add, none, some { content := .integer, addons := [.required, .unique] }⟩),
      ("weight", ⟨.modify, none, some { content := .float }⟩)]

/-- The document of this change, with the table at its end. -/
def retitledPetsDocument : Json :=
  .object
    [("alter", .object
      [("name", .object
        [("action", .string "rename"), ("type", .string "text"), ("newName", .string "title"),
          ("addons", .array [.string "unique"])]),
        ("age", .object [("action", .string "drop")]),
        ("chip", .object
          [("action", .string "add"), ("type", .string "integer"),
            ("addons", .array [.string "required", .string "unique"])]),
        ("weight", .object [("action", .string "modify"), ("type", .string "float")])]),
      ("table", .string "pets")]

def retitledPetsText : String :=
  "ALTER TABLE `pets` CHANGE COLUMN `name` `title` TEXT, DROP COLUMN `age`, " ++
    "ADD `chip` INT(11) NOT NULL, MODIFY `weight` FLOAT(14,2), ADD UNIQUE (`title`, `chip`)"

theorem text_retitledPets : (retitledPets.toSql .alter).1 = .ok retitledPetsText := by cbv

theorem documented_alterations_retitledPets :
    Document.tableChange retitledPetsDocument = .ok retitledPets ∧
      retitledPets.Alterable ∧ (retitledPets.toSql .alter).1 = .ok retitledPetsText := by
  have read : Document.tableChange retitledPetsDocument = .ok retitledPets := by cbv
  exact ⟨read, (documented_alterations read).2.2.1.1 ⟨_, text_retitledPets⟩, text_retitledPets⟩

end SqlScribe
