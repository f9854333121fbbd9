import SqlScribe.Proofs.Identifier
import SqlScribe.TableChange

/-!
# Statements of table changes

When there is a CREATE TABLE or an ALTER TABLE, and which one.

A CREATE TABLE needs valid names and at least one column, and no two columns may
have the same name (`TableChange.creation_eq_ok`).  The columns are defined in
their order, and those that are unique are listed once more.

An ALTER TABLE has one operation for each entry of the change, as
`TableChange.Alters` says, and after them a clause for the columns that are to
be unique.  An entry needs valid names, and the definition and the new name that
belong to its action (`TableChange.alteration_eq_ok`).
-/

namespace SqlScribe

open Checked

/-! ## CREATE TABLE -/

namespace TableChange

variable {change : TableChange}

/-- The change describes a table with valid names, whose columns have different names. -/
structure Creatable (change : TableChange) : Prop where
  table : HasNameForm change.table
  nonempty : change.columns ≠ []
  names : ∀ column ∈ change.columns, HasNameForm column.1
  distinct : (change.columns.map Prod.fst).Nodup

/-- The names of the columns that are to be unique. -/
def uniqueColumns (change : TableChange) : List String :=
  (change.columns.filter fun column => .unique ∈ column.2.addons).map Prod.fst

/-- The checks pass if the names are valid, and different from each other and from those in use. -/
theorem checkColumns_eq_ok {used : List String} {columns : List (String × ColumnSpec)} :
    checkColumns used columns = .ok () ↔
      (∀ column ∈ columns, HasNameForm column.1) ∧ (columns.map Prod.fst).Nodup ∧
        ∀ column ∈ columns, column.1 ∉ used := by
  induction columns generalizing used with
  | nil => simp [checkColumns]
  | cons column rest step =>
      rcases column with ⟨name, spec⟩
      have apart : (∀ column ∈ rest, column.1 ∉ name :: used) ↔
          name ∉ rest.map Prod.fst ∧ ∀ column ∈ rest, column.1 ∉ used := by
        simp only [List.mem_cons, List.mem_map, not_or, forall_and, not_exists, not_and]
      simp only [checkColumns, bind_eq_ok, checkName_eq_ok_iff, List.contains_iff_mem,
        List.forall_mem_cons, List.map_cons, List.nodup_cons]
      constructor
      · rintro ⟨_, ⟨valid, rfl⟩, checked⟩
        split at checked
        · cases checked
        · rcases step.1 checked with ⟨names, distinct, others⟩
          rw [apart] at others
          exact ⟨⟨valid, names⟩, ⟨others.1, distinct⟩, ‹_›, others.2⟩
      · rintro ⟨⟨valid, names⟩, ⟨other, distinct⟩, fresh, others⟩
        refine ⟨name, ⟨valid, rfl⟩, ?_⟩
        rw [if_neg fresh]
        exact step.2 ⟨names, distinct, apart.2 ⟨other, others⟩⟩

theorem creation_eq_ok {ifNotExists : Bool} {create : CreateTable} :
    change.creation ifNotExists = .ok create ↔
      change.Creatable ∧
        create = ⟨change.table, ifNotExists,
          change.columns.map fun column => column.2.definition column.1, change.uniqueColumns⟩ := by
  have unique : (change.columns.filter fun column => column.2.has .unique).map Prod.fst =
      change.uniqueColumns := by
    simp [uniqueColumns, ColumnSpec.has]
  simp only [creation, bind_eq_ok, checkName_eq_ok_iff, List.isEmpty_iff]
  constructor
  · rintro ⟨_, ⟨table, rfl⟩, created⟩
    split at created
    · cases created
    · simp only [bind_eq_ok, pure_eq_ok] at created
      rcases created with ⟨_, checked, rfl⟩
      rcases checkColumns_eq_ok.1 checked with ⟨names, distinct, -⟩
      exact ⟨⟨table, ‹_›, names, distinct⟩, by rw [← unique]⟩
  · rintro ⟨⟨table, nonempty, names, distinct⟩, rfl⟩
    have checked : checkColumns [] change.columns = .ok () :=
      checkColumns_eq_ok.2 ⟨names, distinct, by simp⟩
    refine ⟨_, ⟨table, rfl⟩, ?_⟩
    rw [if_neg nonempty, ← unique]
    exact bind_eq_ok.2 ⟨(), checked, rfl⟩

end TableChange

/-! ## Entries of an ALTER TABLE -/

namespace ColumnChange

/-- The entry has what its action needs. -/
structure Complete (change : ColumnChange) : Prop where
  definition : change.action ≠ .drop → ∃ spec, change.definition = some spec
  newName : change.action = .rename → ∃ newName, change.newName = some newName

/-- The name of the column after the change. -/
def target (column : String) (change : ColumnChange) : String :=
  if change.action = .rename then change.newName.getD column else column

/-- The column is still there after the change, and its definition makes it unique. -/
def IsUnique (change : ColumnChange) : Prop :=
  change.action ≠ .drop ∧ ∃ spec, change.definition = some spec ∧ spec.has .unique

instance (change : ColumnChange) : Decidable change.IsUnique :=
  decidable_of_iff (change.action ≠ .drop ∧ (change.definition.any fun spec => spec.has .unique))
    (by rw [IsUnique, Option.any_eq_true])

end ColumnChange

namespace TableChange

variable {column : String} {change : ColumnChange}

/-- The operation that an entry stands for. -/
inductive Alters : String × ColumnChange → TableAlteration → Prop
  | add {column : String} {newName : Option String} {spec : ColumnSpec} :
      Alters (column, ⟨.add, newName, some spec⟩) (.add (spec.definition column))
  | modify {column : String} {newName : Option String} {spec : ColumnSpec} :
      Alters (column, ⟨.modify, newName, some spec⟩) (.modify (spec.definition column))
  | drop {column : String} {newName : Option String} {definition : Option ColumnSpec} :
      Alters (column, ⟨.drop, newName, definition⟩) (.drop column)
  | rename {column newName : String} {spec : ColumnSpec} :
      Alters (column, ⟨.rename, some newName, some spec⟩)
        (.change column (spec.definition newName))

/-- An entry stands for an operation exactly if it has what its action needs. -/
theorem exists_alters_iff : (∃ operation, Alters (column, change) operation) ↔ change.Complete := by
  constructor
  · rintro ⟨_, alters⟩
    cases alters <;> constructor <;> simp
  · rintro ⟨definition, newName⟩
    rcases change with ⟨action, given, described⟩
    cases action with
    | add =>
        rcases definition (by simp) with ⟨spec, rfl⟩
        exact ⟨_, .add⟩
    | modify =>
        rcases definition (by simp) with ⟨spec, rfl⟩
        exact ⟨_, .modify⟩
    | drop => exact ⟨_, .drop⟩
    | rename =>
        rcases definition (by simp) with ⟨spec, rfl⟩
        rcases newName rfl with ⟨name, rfl⟩
        exact ⟨_, .rename⟩

/-- The names in an entry are names that the database takes. -/
structure NamesValid (entry : String × ColumnChange) : Prop where
  column : HasNameForm entry.1
  newName : entry.2.action = .rename → ∀ newName ∈ entry.2.newName, HasNameForm newName

theorem NamesValid.target {entry : String × ColumnChange} (valid : NamesValid entry) :
    HasNameForm (entry.2.target entry.1) := by
  rcases entry with ⟨column, action, newName, definition⟩
  unfold ColumnChange.target
  split
  · cases newName with
    | none => exact valid.column
    | some newName => exact valid.newName ‹_› newName rfl
  · exact valid.column

/-- The name that an entry adds to the clause for unique columns. -/
def uniqueTarget? (entry : String × ColumnChange) : Option String :=
  if entry.2.IsUnique then some (entry.2.target entry.1) else none

theorem uniqueTarget?_eq_some {entry : String × ColumnChange} {target : String} :
    uniqueTarget? entry = some target ↔ entry.2.IsUnique ∧ entry.2.target entry.1 = target := by
  unfold uniqueTarget?
  split
  · simp [*]
  · simp [*]

theorem uniqueTarget?_drop {newName : Option String} {definition : Option ColumnSpec} :
    uniqueTarget? (column, ⟨.drop, newName, definition⟩) = none := by
  simp [uniqueTarget?, ColumnChange.IsUnique]

theorem uniqueTarget?_kept {action : ColumnAction} {newName : Option String} {spec : ColumnSpec}
    (kept : action ≠ .drop) :
    uniqueTarget? (column, ⟨action, newName, some spec⟩) =
      if spec.has .unique then
        some (ColumnChange.target column ⟨action, newName, some spec⟩) else none := by
  simp [uniqueTarget?, ColumnChange.IsUnique, kept]

theorem definitionOf_eq_ok {spec : ColumnSpec} :
    definitionOf column change = .ok spec ↔ change.definition = some spec := by
  unfold definitionOf
  cases change.definition <;> simp

theorem renamed_eq_ok {target : String × ColumnSpec} :
    renamed column change = .ok target ↔
      change.newName = some target.1 ∧ HasNameForm target.1 ∧
        change.definition = some target.2 := by
  unfold renamed
  rcases change.newName with _ | newName
  · simp
  · simp only [bind_eq_ok, pure_eq_ok, checkName_eq_ok_iff, definitionOf_eq_ok,
      Option.some.injEq]
    constructor
    · rintro ⟨_, ⟨valid, rfl⟩, spec, described, rfl⟩
      exact ⟨rfl, valid, described⟩
    · rintro ⟨rfl, valid, described⟩
      exact ⟨_, ⟨valid, rfl⟩, _, described, rfl⟩

/-- An entry is compiled if its names are valid, into the operation that it stands for. -/
theorem alteration_eq_ok {result : TableAlteration × Option String} :
    alteration column change = .ok result ↔
      NamesValid (column, change) ∧ Alters (column, change) result.1 ∧
        result.2 = uniqueTarget? (column, change) := by
  rcases result with ⟨operation, unique⟩
  rcases change with ⟨action, newName, definition⟩
  simp only [alteration, bind_eq_ok, checkName_eq_ok_iff]
  constructor
  · rintro ⟨_, ⟨valid, rfl⟩, compiled⟩
    cases action with
    | drop =>
        cases pure_eq_ok.1 compiled
        exact ⟨⟨valid, by simp⟩, .drop, uniqueTarget?_drop.symm⟩
    | add =>
        simp only [bind_eq_ok, definitionOf_eq_ok, pure_eq_ok] at compiled
        rcases compiled with ⟨spec, rfl, same⟩
        cases same
        refine ⟨⟨valid, by simp⟩, .add, ?_⟩
        rw [uniqueTarget?_kept (by simp)]
        rfl
    | modify =>
        simp only [bind_eq_ok, definitionOf_eq_ok, pure_eq_ok] at compiled
        rcases compiled with ⟨spec, rfl, same⟩
        cases same
        refine ⟨⟨valid, by simp⟩, .modify, ?_⟩
        rw [uniqueTarget?_kept (by simp)]
        rfl
    | rename =>
        simp only [bind_eq_ok, renamed_eq_ok, pure_eq_ok] at compiled
        rcases compiled with ⟨⟨target, spec⟩, ⟨rfl, renamed, rfl⟩, same⟩
        cases same
        refine ⟨⟨valid, by simpa using renamed⟩, .rename, ?_⟩
        rw [uniqueTarget?_kept (by simp)]
        rfl
  · rintro ⟨valid, alters, rfl⟩
    refine ⟨_, ⟨valid.column, rfl⟩, ?_⟩
    cases alters with
    | drop =>
        rw [uniqueTarget?_drop]
        rfl
    | add | modify =>
        rw [uniqueTarget?_kept (by simp)]
        rfl
    | @rename _ newName spec =>
        have target : renamed column ⟨.rename, some newName, some spec⟩ = .ok (newName, spec) :=
          renamed_eq_ok.2 ⟨rfl, valid.newName rfl _ rfl, rfl⟩
        rw [uniqueTarget?_kept (by simp)]
        exact bind_eq_ok.2 ⟨_, target, rfl⟩

end TableChange

/-! ## ALTER TABLE -/

namespace TableChange

variable {change : TableChange} {alter : AlterTable}

/-- The clause for the columns that are to be unique, if there are any. -/
def uniqueClause (columns : List String) : List TableAlteration :=
  if columns = [] then [] else [.addUnique columns]

theorem altering_eq_ok :
    change.altering = .ok alter ↔
      HasNameForm change.table ∧ change.changes ≠ [] ∧
        ∃ results,
          List.Forall₂ (fun entry result => alteration entry.1 entry.2 = .ok result)
            change.changes results ∧
          alter = ⟨change.table,
            results.map Prod.fst ++ uniqueClause (results.filterMap Prod.snd)⟩ := by
  simp only [altering, uniqueClause, bind_eq_ok, checkName_eq_ok_iff]
  by_cases empty : change.changes = []
  · simp [empty]
  · simp only [List.isEmpty_iff, empty, if_false, bind_eq_ok, pure_eq_ok, mapM_eq_ok]
    constructor
    · rintro ⟨_, ⟨valid, rfl⟩, results, each, rfl⟩
      exact ⟨valid, empty, results, each, rfl⟩
    · rintro ⟨valid, -, results, each, rfl⟩
      exact ⟨_, ⟨valid, rfl⟩, results, each, rfl⟩

/-- The names of the change are valid, and it has entries. -/
structure Alterable (change : TableChange) : Prop where
  table : HasNameForm change.table
  nonempty : change.changes ≠ []
  entries : ∀ entry ∈ change.changes, NamesValid entry

/-- There is an ALTER TABLE if names are valid and entries have what their actions need. -/
theorem exists_altering_iff :
    (∃ alter, change.altering = .ok alter) ↔
      change.Alterable ∧ ∀ entry ∈ change.changes, entry.2.Complete := by
  simp only [altering_eq_ok]
  constructor
  · rintro ⟨_, valid, some, results, each, rfl⟩
    have entries : ∀ entry ∈ change.changes, NamesValid entry ∧ entry.2.Complete := by
      intro entry member
      rcases exists_right_of_forall₂ each entry member with ⟨result, -, compiled⟩
      rcases alteration_eq_ok.1 compiled with ⟨names, alters, -⟩
      exact ⟨names, exists_alters_iff.1 ⟨_, alters⟩⟩
    exact ⟨⟨valid, some, fun entry member => (entries entry member).1⟩,
      fun entry member => (entries entry member).2⟩
  · rintro ⟨alterable, complete⟩
    have each : ∀ entry ∈ change.changes, ∃ result, alteration entry.1 entry.2 = .ok result := by
      intro entry member
      have known : ∃ operation, Alters entry operation :=
        exists_alters_iff.2 (complete entry member)
      rcases known with ⟨operation, alters⟩
      exact ⟨(operation, uniqueTarget? entry),
        alteration_eq_ok.2 ⟨alterable.entries entry member, alters, rfl⟩⟩
    rcases exists_mapM_iff.2 each with ⟨results, compiled⟩
    exact ⟨_, alterable.table, alterable.nonempty, results, mapM_eq_ok.1 compiled, rfl⟩

/-- An ALTER TABLE has an operation for each entry, and then the clause for unique columns. -/
theorem operations_of_altering (compiled : change.altering = .ok alter) :
    alter.table = change.table ∧
      ∃ operations, List.Forall₂ Alters change.changes operations ∧
        alter.alterations =
          operations ++ uniqueClause (change.changes.filterMap uniqueTarget?) := by
  rcases altering_eq_ok.1 compiled with ⟨-, -, results, each, rfl⟩
  refine ⟨rfl, results.map Prod.fst, ?_, ?_⟩
  · rw [List.forall₂_map_right_iff]
    exact each.imp fun entry result compiled => (alteration_eq_ok.1 compiled).2.1
  · have unique : results.map Prod.snd = change.changes.map uniqueTarget? := by
      rw [← forall₂_eq_map_iff, List.forall₂_map_right_iff]
      exact each.imp fun entry result compiled => (alteration_eq_ok.1 compiled).2.2
    have gathered := congrArg (List.filterMap id) unique
    rw [List.filterMap_map, List.filterMap_map] at gathered
    exact congrArg (results.map Prod.fst ++ uniqueClause ·) gathered

end TableChange

end SqlScribe
