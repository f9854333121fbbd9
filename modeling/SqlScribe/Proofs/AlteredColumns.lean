import SqlScribe.Proofs.Alterations

/-!
# The columns of an ALTER TABLE

An ALTER TABLE should define no column twice, and none that it drops.  Nothing
checks this: an entry of a table change is accepted or refused by itself, and no
two entries are compared.  So the statement keeps to it exactly if no two
entries clash, and among entries for different columns only one that renames can
clash with another.
-/

namespace SqlScribe

open Checked

/-! ## Columns of operations -/

namespace TableAlteration

/-- The column that an operation defines, as it is called afterwards. -/
def target? : TableAlteration → Option String
  | .add definition | .modify definition | .change _ definition => some definition.name
  | .drop _ | .addUnique _ => none

def dropped? : TableAlteration → Option String
  | .drop column => some column
  | _ => none

/-- The columns that an operation makes unique. -/
def uniqueColumns : TableAlteration → List String
  | .addUnique columns => columns
  | _ => []

end TableAlteration

namespace AlterTable

def targets (alter : AlterTable) : List String :=
  alter.alterations.filterMap TableAlteration.target?

def dropped (alter : AlterTable) : List String :=
  alter.alterations.filterMap TableAlteration.dropped?

def uniqueColumns (alter : AlterTable) : List String :=
  alter.alterations.flatMap TableAlteration.uniqueColumns

/-- No column is defined twice, and none that is defined is dropped. -/
structure DefinesOnce (alter : AlterTable) : Prop where
  distinct : alter.targets.Nodup
  kept : ∀ column ∈ alter.targets, column ∉ alter.dropped

end AlterTable

/-! ## Columns of entries -/

namespace TableChange

variable {change : TableChange} {alter : AlterTable} {entry : String × ColumnChange}

/-- The name under which the column of an entry is there afterwards, unless it is dropped. -/
def target? (entry : String × ColumnChange) : Option String :=
  if entry.2.action = .drop then none else some (entry.2.target entry.1)

def dropped? (entry : String × ColumnChange) : Option String :=
  if entry.2.action = .drop then some entry.1 else none

/-- Both entries define the same column, or one defines a column that the other drops. -/
def Clash (first second : String × ColumnChange) : Prop :=
  ∃ column,
    (target? first = some column ∧ target? second = some column) ∨
      (target? first = some column ∧ dropped? second = some column) ∨
      (dropped? first = some column ∧ target? second = some column)

theorem Clash.symm {first second : String × ColumnChange} (clash : Clash first second) :
    Clash second first := by
  rcases clash with ⟨column, ⟨own, other⟩ | ⟨own, other⟩ | ⟨own, other⟩⟩
  · exact ⟨column, .inl ⟨other, own⟩⟩
  · exact ⟨column, .inr (.inr ⟨other, own⟩)⟩
  · exact ⟨column, .inr (.inl ⟨other, own⟩)⟩

/-- An entry does not both define and drop a column. -/
theorem dropped?_of_target? {column : String} (target : target? entry = some column) :
    dropped? entry = none := by
  unfold target? at target
  unfold dropped?
  split at target
  · cases target
  · rw [if_neg ‹_›]

/-- No two entries clash if what they define is different, and nothing of it is dropped. -/
theorem pairwise_not_clash_iff {changes : List (String × ColumnChange)} :
    changes.Pairwise (fun first second => ¬ Clash first second) ↔
      (changes.filterMap target?).Nodup ∧
        ∀ column ∈ changes.filterMap target?, column ∉ changes.filterMap dropped? := by
  rw [List.Nodup, List.pairwise_filterMap]
  constructor
  · intro apart
    refine ⟨apart.imp fun free column own other target same => ?_, fun column defined gone => ?_⟩
    · exact free ⟨column, .inl ⟨own, same ▸ target⟩⟩
    · rcases List.mem_filterMap.1 defined with ⟨first, member, target⟩
      rcases List.mem_filterMap.1 gone with ⟨second, present, dropped⟩
      have different : first ≠ second := by
        rintro rfl
        rw [dropped?_of_target? target] at dropped
        cases dropped
      have symmetric : Std.Symm fun first second => ¬ Clash first second :=
        ⟨fun _ _ free clash => free clash.symm⟩
      exact apart.forall member present different ⟨column, .inr (.inl ⟨target, dropped⟩)⟩
  · rintro ⟨distinct, kept⟩
    refine distinct.imp_of_mem fun {first second} member present different => ?_
    rintro ⟨column, ⟨own, other⟩ | ⟨own, other⟩ | ⟨own, other⟩⟩
    · exact different column own column other rfl
    · exact kept column (List.mem_filterMap.2 ⟨first, member, own⟩)
        (List.mem_filterMap.2 ⟨second, present, other⟩)
    · exact kept column (List.mem_filterMap.2 ⟨second, present, other⟩)
        (List.mem_filterMap.2 ⟨first, member, own⟩)

/-- Entries for different columns do not clash if none of them renames. -/
theorem not_clash_of_ne {first second : String × ColumnChange} (apart : first.1 ≠ second.1)
    (own : first.2.action ≠ .rename) (other : second.2.action ≠ .rename) :
    ¬ Clash first second := by
  have target {entry : String × ColumnChange} {column : String}
      (fixed : entry.2.action ≠ .rename) (defined : target? entry = some column) :
      entry.1 = column := by
    unfold target? at defined
    split at defined
    · cases defined
    · simpa [ColumnChange.target, fixed] using defined
  have dropped {entry : String × ColumnChange} {column : String}
      (gone : dropped? entry = some column) : entry.1 = column := by
    unfold dropped? at gone
    split at gone
    · exact Option.some.inj gone
    · cases gone
  rintro ⟨column, ⟨first, second⟩ | ⟨first, second⟩ | ⟨first, second⟩⟩
  · exact apart ((target own first).trans (target other second).symm)
  · exact apart ((target own first).trans (dropped second).symm)
  · exact apart ((dropped first).trans (target other second).symm)

/-- What an entry makes unique is what it defines. -/
theorem target?_of_uniqueTarget? {column : String} (unique : uniqueTarget? entry = some column) :
    target? entry = some column := by
  rcases uniqueTarget?_eq_some.1 unique with ⟨⟨kept, -⟩, rfl⟩
  exact if_neg kept

theorem uniqueTargets_sublist (changes : List (String × ColumnChange)) :
    (changes.filterMap uniqueTarget?).Sublist (changes.filterMap target?) := by
  induction changes with
  | nil => exact .slnil
  | cons entry rest step =>
      cases unique : uniqueTarget? entry with
      | none =>
          rw [List.filterMap_cons_none unique]
          exact step.trans ((List.sublist_cons_self entry rest).filterMap target?)
      | some column =>
          rw [List.filterMap_cons_some unique,
            List.filterMap_cons_some (target?_of_uniqueTarget? unique)]
          exact step.cons_cons column

/-! ## Columns of a statement -/

/-- Operations define and drop what their entries do, and none of them makes a column unique. -/
theorem columns_of_alters
    {changes : List (String × ColumnChange)} {operations : List TableAlteration}
    (each : List.Forall₂ Alters changes operations) :
    operations.filterMap TableAlteration.target? = changes.filterMap target? ∧
      operations.filterMap TableAlteration.dropped? = changes.filterMap dropped? ∧
      operations.flatMap TableAlteration.uniqueColumns = [] := by
  induction each with
  | nil => exact ⟨rfl, rfl, rfl⟩
  | @cons entry operation rest others alters _ step =>
      rcases step with ⟨targets, dropped, unique⟩
      have target : operation.target? = target? entry := by cases alters <;> rfl
      have gone : operation.dropped? = dropped? entry := by cases alters <;> rfl
      have none : operation.uniqueColumns = [] := by cases alters <;> rfl
      simp only [List.filterMap_cons, List.flatMap_cons, target, gone, none, targets, dropped,
        unique, List.append_nil, and_self]

/-- The clause for unique columns neither defines nor drops a column. -/
theorem columns_of_uniqueClause (columns : List String) :
    (uniqueClause columns).filterMap TableAlteration.target? = [] ∧
      (uniqueClause columns).filterMap TableAlteration.dropped? = [] ∧
      (uniqueClause columns).flatMap TableAlteration.uniqueColumns = columns := by
  unfold uniqueClause
  split
  · exact ⟨rfl, rfl, Eq.symm ‹_›⟩
  · exact ⟨rfl, rfl, List.append_nil columns⟩

/-- The columns of an ALTER TABLE are those of the entries that it was compiled from. -/
theorem columns_of_altering (compiled : change.altering = .ok alter) :
    alter.targets = change.changes.filterMap target? ∧
      alter.dropped = change.changes.filterMap dropped? ∧
      alter.uniqueColumns = change.changes.filterMap uniqueTarget? := by
  rcases operations_of_altering compiled with ⟨-, operations, each, listed⟩
  rcases columns_of_alters each with ⟨targets, dropped, unique⟩
  rcases columns_of_uniqueClause (change.changes.filterMap uniqueTarget?) with
    ⟨noTargets, noDropped, gathered⟩
  rw [AlterTable.targets, AlterTable.dropped, AlterTable.uniqueColumns, listed,
    List.filterMap_append, List.filterMap_append, List.flatMap_append]
  rw [targets, dropped, unique, noTargets, noDropped, gathered]
  exact ⟨List.append_nil _, List.append_nil _, rfl⟩

/-- An ALTER TABLE defines its columns once exactly if no two of its entries clash. -/
theorem definesOnce_iff (compiled : change.altering = .ok alter) :
    alter.DefinesOnce ↔
      change.changes.Pairwise fun first second => ¬ Clash first second := by
  rcases columns_of_altering compiled with ⟨targets, dropped, -⟩
  rw [pairwise_not_clash_iff, ← targets, ← dropped]
  exact ⟨fun once => ⟨once.distinct, once.kept⟩, fun once => ⟨once.1, once.2⟩⟩

end TableChange

/--
An ALTER TABLE is refused for single entries only.  So it defines every column
once, and none that it drops, exactly if no two entries of the change clash;
entries for different columns do not, unless one of them renames.  Unique are
columns that the statement defines: each of them once, and none that is gone
afterwards, if it defines every column once.
-/
theorem altered_columns_once_iff (change : TableChange) :
    ((∃ sql, (change.toSql .alter).1 = .ok sql) ↔
      change.Alterable ∧ ∀ entry ∈ change.changes, entry.2.Complete) ∧
    ∀ sql, (change.toSql .alter).1 = .ok sql →
      ∃ alter,
        change.altering = .ok alter ∧
          (Statement.alterTable alter).toSql = .ok sql ∧
          alter.targets = change.changes.filterMap TableChange.target? ∧
          alter.dropped = change.changes.filterMap TableChange.dropped? ∧
          (alter.DefinesOnce ↔
            change.changes.Pairwise fun first second => ¬ TableChange.Clash first second) ∧
          ((change.changes.map Prod.fst).Nodup →
            (∀ entry ∈ change.changes, entry.2.action ≠ .rename) → alter.DefinesOnce) ∧
          alter.uniqueColumns.Sublist alter.targets ∧
          (alter.DefinesOnce →
            alter.uniqueColumns.Nodup ∧
              ∀ column ∈ alter.uniqueColumns, column ∉ alter.dropped) := by
  refine ⟨?_, fun sql written => ?_⟩
  · rw [← TableChange.exists_altering_iff]
    constructor
    · rintro ⟨sql, written⟩
      rcases TableChange.toSql_alter_eq_ok.1 written with ⟨alter, compiled, -⟩
      exact ⟨alter, compiled⟩
    · rintro ⟨alter, compiled⟩
      rcases TableChange.text_of_altering compiled with ⟨sql, -, written⟩
      exact ⟨sql, written⟩
  · rcases TableChange.toSql_alter_eq_ok.1 written with ⟨alter, compiled, spelled⟩
    rcases TableChange.columns_of_altering compiled with ⟨targets, dropped, unique⟩
    have once := TableChange.definesOnce_iff compiled
    have listed : alter.uniqueColumns.Sublist alter.targets := by
      rw [unique, targets]
      exact TableChange.uniqueTargets_sublist change.changes
    refine ⟨alter, compiled, spelled, targets, dropped, once, fun distinct fixed => ?_, listed,
      fun defined => ⟨listed.nodup defined.distinct, fun column member =>
        defined.kept column (listed.subset member)⟩⟩
    rw [once]
    exact (List.pairwise_map.1 distinct).imp_of_mem fun member present apart =>
      TableChange.not_clash_of_ne apart (fixed _ member) (fixed _ present)

theorem altered_columns_once_iff_retitledPets :
    ∃ alter,
      retitledPets.altering = .ok alter ∧
        alter.targets = ["title", "chip", "weight"] ∧ alter.dropped = ["age"] ∧
        alter.DefinesOnce ∧ alter.uniqueColumns.Nodup := by
  rcases (altered_columns_once_iff retitledPets).2 _ text_retitledPets with
    ⟨alter, compiled, -, targets, dropped, -, -, -, unique⟩
  have defined : alter.DefinesOnce := by
    constructor
    · rw [targets]
      decide
    · rw [targets, dropped]
      decide
  exact ⟨alter, compiled, targets, dropped, defined, (unique defined).1⟩

/-- A change that adds a column and gives its name to another one as well. -/
def doubledColumn : TableChange where
  table := "t"
  changes :=
    [("a", ⟨.add, none, some { content := .integer, addons := [.unique] }⟩),
      ("b", ⟨.rename, some "a", some { content := .integer, addons := [.unique] }⟩)]

def doubledColumnDocument : Json :=
  .object
    [("table", .string "t"),
      ("alter", .object
        [("a", .object
          [("action", .string "add"), ("type", .string "integer"),
            ("addons", .array [.string "unique"])]),
        ("b", .object
          [("action", .string "rename"), ("newName", .string "a"), ("type", .string "integer"),
            ("addons", .array [.string "unique"])])])]

/-- The change is accepted, and its statement defines a column twice and lists it twice. -/
theorem altered_columns_doubled :
    Document.tableChange doubledColumnDocument = .ok doubledColumn ∧
      (doubledColumn.toSql .alter).1 =
        .ok ("ALTER TABLE `t` ADD `a` INT(11), CHANGE COLUMN `b` `a` INT(11), " ++
          "ADD UNIQUE (`a`, `a`)") ∧
      ∃ alter,
        doubledColumn.altering = .ok alter ∧
          alter.targets = ["a", "a"] ∧ alter.uniqueColumns = ["a", "a"] ∧
          ¬ alter.DefinesOnce ∧ ¬ alter.uniqueColumns.Nodup := by
  have read : Document.tableChange doubledColumnDocument = .ok doubledColumn := by cbv
  have text : (doubledColumn.toSql .alter).1 =
      .ok ("ALTER TABLE `t` ADD `a` INT(11), CHANGE COLUMN `b` `a` INT(11), " ++
        "ADD UNIQUE (`a`, `a`)") := by
    cbv
  have compiled : doubledColumn.altering =
      .ok ⟨"t", [.add ⟨"a", "INT(11)", false, false, false⟩,
        .change "b" ⟨"a", "INT(11)", false, false, false⟩, .addUnique ["a", "a"]]⟩ := by
    cbv
  refine ⟨read, text, _, compiled, rfl, rfl, fun once => ?_, by decide⟩
  exact absurd once.distinct (by decide)

end SqlScribe
