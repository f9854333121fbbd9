import Mathlib
import SqlScribe.Proofs.RowStatements

/-!
# What an upsert does to a table

A table is a list of rows, told apart by their identifier column.  An INSERT
proposes a row.  If a row with the same identifier is there already, the
assignments for that case change it one after another; otherwise the proposed
row is added.

`upsert_effect` says what this comes to for the upserts of row changes: which
columns of a row that is there keep their values, which take new ones, and that
excluded columns stay as the first upsert left them.
-/

namespace SqlScribe

open Checked

/-! ## Rows and what an INSERT does to them -/

/-- A stored row: the value of every column. -/
abbrev StoredRow := String → Json

/--
What a database brings to a statement: the sum of a value and a number, and the
values of a new row in the columns that the statement does not write.
-/
structure Database where
  plus : Json → Int → Json
  defaults : List StoredRow → StoredRow

/-- Changes columns of a row one after another. -/
def StoredRow.alter (row : StoredRow) (changes : List (String × (Json → Json))) : StoredRow :=
  changes.foldl (fun altered change =>
    Function.update altered change.1 (change.2 (altered change.1))) row

/-- The value that an assignment gives a column, from the inserted value and the stored one. -/
def AssignedValue.result (db : Database) (value : AssignedValue) (inserted stored : Json) : Json :=
  match value with
  | .literal given => given
  | .increment delta => db.plus stored delta
  | .inserted => inserted
  | .unchanged => stored

/-- The change of a stored row that an assignment stands for. -/
def Assignment.change (db : Database) (proposed : StoredRow) (assignment : Assignment) :
    String × (Json → Json) :=
  (assignment.column, assignment.value.result db (proposed assignment.column))

namespace Insert

/-- The row that an INSERT would add. -/
def proposed (insert : Insert) (defaults : StoredRow) : StoredRow :=
  defaults.alter ((insert.columns.zip insert.values).map fun entry => (entry.1, fun _ => entry.2))

/-- A row that is already there, after the assignments for that case. -/
def rewritten (db : Database) (insert : Insert) (proposed stored : StoredRow) : StoredRow :=
  stored.alter (insert.onDuplicate.map (Assignment.change db proposed))

/-- The rows of a table after an INSERT; rows with the same identifier are in conflict. -/
def run (db : Database) (key : String) (insert : Insert) (rows : List StoredRow) : List StoredRow :=
  let proposed := insert.proposed (db.defaults rows)
  if ∃ row ∈ rows, row key = proposed key then
    rows.map fun row => if row key = proposed key then insert.rewritten db proposed row else row
  else rows ++ [proposed]

end Insert

/-- Changes of different columns do not see each other. -/
theorem StoredRow.alter_spec {changes : List (String × (Json → Json))}
    (distinct : (changes.map Prod.fst).Nodup) (row : StoredRow) :
    (∀ change ∈ changes, row.alter changes change.1 = change.2 (row change.1)) ∧
      ∀ column, column ∉ changes.map Prod.fst → row.alter changes column = row column := by
  induction changes generalizing row with
  | nil => simp [alter]
  | cons first rest step =>
      rw [List.map_cons, List.nodup_cons] at distinct
      rcases step distinct.2 (Function.update row first.1 (first.2 (row first.1))) with
        ⟨changed, kept⟩
      refine ⟨?_, ?_⟩
      · intro change member
        rcases List.mem_cons.1 member with rfl | later
        · exact (kept change.1 distinct.1).trans (Function.update_self ..)
        · have different : change.1 ≠ first.1 := fun same =>
            distinct.1 (same ▸ List.mem_map_of_mem later)
          refine (changed change later).trans ?_
          rw [Function.update_of_ne different]
      · intro column absent
        rw [List.map_cons, List.mem_cons, not_or] at absent
        exact (kept column absent.2).trans (Function.update_of_ne absent.1 ..)

/-! ## The statement of an upsert -/

namespace RowChange

variable {config : Config} {change : RowChange} {excluded : List String}

/-- Writing values one after another writes no column twice. -/
theorem nodup_writeAll {values : List (String × WriteValue)}
    (distinct : change.fields.keys.Nodup) : (change.writeAll values).fields.keys.Nodup := by
  unfold writeAll
  induction values generalizing change with
  | nil => exact distinct
  | cons entry rest step => exact step (Entries.nodup_keys_put entry.1 entry.2 distinct)

/-- The identifier of the row that a change writes: of its fields, or the one beside them. -/
def identifier? (config : Config) (change : RowChange) : Option Json :=
  ((change.fields.get? config.identifierKey).map WriteValue.inserted).or change.id

/-- An upsert inserts the row of its change, and rewrites the columns it may overwrite, if any. -/
theorem rewriting_of_upsertion {insert : Insert}
    (compiled : upsertion config change excluded = .ok insert) :
    insert.columns.zip insert.values = insertedRow config change ∧
      (insert.onDuplicate = duplicateAssignments config excluded change.fields ∨
        ∃ column, insert.onDuplicate = [⟨column, .unchanged⟩] ∧
          duplicateAssignments config excluded change.fields = []) := by
  rcases upsertion_eq_ok.1 compiled with ⟨-, first, rest, -, rfl⟩
  refine ⟨?_, ?_⟩
  · simp only
    rw [← List.unzip_fst, ← List.unzip_snd, List.zip_unzip]
  · by_cases none : duplicateAssignments config excluded change.fields = []
    · exact .inr ⟨first.1, by simp [none], none⟩
    · exact .inl (by simp [none])

end RowChange

/--
An upsert of a row change that was compiled.  A change that starts without
fields writes no column twice: `RowChange.nodup_writeAll`.
-/
structure Upsert (config : Config) where
  change : RowChange
  excluded : List String
  insert : Insert
  distinct : change.fields.keys.Nodup
  compiled : change.upsertion config excluded = .ok insert

namespace Upsert

variable {config : Config} (db : Database) (upsert : Upsert config)

/-- The rows of a table after an upsert. -/
def run (rows : List StoredRow) : List StoredRow := upsert.insert.run db config.identifierKey rows

/-- The identifier of the row that an upsert proposes. -/
def identifier (defaults : StoredRow) : Json :=
  (upsert.change.identifier? config).getD (defaults config.identifierKey)

/-- An upsert may overwrite a column that is neither the identifier nor excluded. -/
def Overwrites (column : String) : Prop :=
  column ≠ config.identifierKey ∧ column ∉ upsert.excluded

/-- What an upsert makes of a row that is there already. -/
structure Rewrites (stored after : StoredRow) : Prop where
  kept : ∀ column, (upsert.Overwrites column → column ∉ upsert.change.fields.keys) →
    after column = stored column
  literal : ∀ column value, (column, .literal value) ∈ upsert.change.fields →
    upsert.Overwrites column → after column = value
  increment : ∀ column delta, (column, .increment delta) ∈ upsert.change.fields →
    upsert.Overwrites column → after column = db.plus (stored column) delta

/-- The row that an upsert adds. -/
structure Adds (defaults added : StoredRow) : Prop where
  literal : ∀ column value, (column, .literal value) ∈ upsert.change.fields →
    added column = value
  increment : ∀ column delta, (column, .increment delta) ∈ upsert.change.fields →
    added column = .integer delta
  identifier : added config.identifierKey = upsert.identifier defaults
  unwritten : ∀ column,
    column ∉ upsert.change.fields.keys → column ≠ config.identifierKey →
    added column = defaults column

/-- What an upsert does to a table: it rewrites the rows in conflict, or adds a row. -/
inductive Effect (rows : List StoredRow) : List StoredRow → Prop where
  | rewritten {after}
      (conflict : ∃ row ∈ rows,
        row config.identifierKey = upsert.identifier (db.defaults rows))
      (each : List.Forall₂
        (fun stored after =>
          if stored config.identifierKey = upsert.identifier (db.defaults rows) then
            upsert.Rewrites db stored after
          else after = stored)
        rows after) :
      Effect rows after
  | added {new}
      (free : ∀ row ∈ rows, row config.identifierKey ≠ upsert.identifier (db.defaults rows))
      (row : upsert.Adds (db.defaults rows) new) :
      Effect rows (rows ++ [new])

/-- The row that an upsert proposes holds the values of its change. -/
theorem adds_proposed (defaults : StoredRow) :
    upsert.Adds defaults (upsert.insert.proposed defaults) := by
  let row := RowChange.insertedRow config upsert.change
  have keys : ((row.map fun entry => ((entry.1, fun _ => entry.2) : String × (Json → Json))).map
      Prod.fst) = row.map Prod.fst := by
    simp
  rcases StoredRow.alter_spec (keys ▸ RowChange.nodup_columns_insertedRow upsert.distinct) defaults with
    ⟨changed, kept⟩
  rw [keys] at kept
  rw [Insert.proposed, (RowChange.rewriting_of_upsertion upsert.compiled).1]
  have written {column : String} {value : Json} (member : (column, value) ∈ row) :
      defaults.alter (row.map fun entry => (entry.1, fun _ => entry.2)) column = value :=
    changed (column, fun _ => value) (List.mem_map_of_mem member)
  have field {column : String} {value : WriteValue}
      (member : (column, value) ∈ upsert.change.fields) : (column, value.inserted) ∈ row :=
    RowChange.mem_insertedRow.2 (.inr ⟨value, member, rfl⟩)
  refine ⟨fun column value member => written (field member),
    fun column delta member => written (field member), ?_, ?_⟩
  · -- The identifier is one of the fields, or stands beside them, or is left to the database.
    unfold identifier RowChange.identifier?
    cases stored : upsert.change.fields.get? config.identifierKey with
    | some value => exact written (field (Entries.mem_of_get? stored))
    | none =>
        have unwritten := Entries.get?_eq_none.1 stored
        cases given : upsert.change.id with
        | some id => exact written (RowChange.mem_insertedRow.2 (.inl ⟨rfl, unwritten, given⟩))
        | none =>
            refine kept _ fun member => ?_
            rcases List.mem_map.1 member with ⟨⟨_, value⟩, present, same⟩
            rcases RowChange.mem_insertedRow.1 present with ⟨-, -, id⟩ | ⟨value, stored, -⟩
            · simp [given] at id
            · exact unwritten (same ▸ List.mem_map_of_mem stored)
  · intro column unwritten other
    refine kept column fun member => ?_
    rcases List.mem_map.1 member with ⟨⟨_, value⟩, present, same⟩
    rcases RowChange.mem_insertedRow.1 present with ⟨key, -, -⟩ | ⟨value, stored, -⟩
    · exact other (same ▸ key)
    · exact unwritten (same ▸ List.mem_map_of_mem stored)

/-- A row that is there already is rewritten in the columns that the upsert may overwrite. -/
theorem rewrites_stored (defaults stored : StoredRow) :
    upsert.Rewrites db stored
      (upsert.insert.rewritten db (upsert.insert.proposed defaults) stored) := by
  have proposed := adds_proposed upsert defaults
  rcases RowChange.rewriting_of_upsertion upsert.compiled with ⟨-, assignments | nothing⟩
  · have distinct : ((upsert.insert.onDuplicate.map
        (Assignment.change db (upsert.insert.proposed defaults))).map Prod.fst).Nodup := by
      rw [assignments, List.map_map]
      exact RowChange.nodup_columns_duplicateAssignments upsert.distinct
    rcases StoredRow.alter_spec distinct stored with ⟨changed, kept⟩
    have assigned {column : String} {value : AssignedValue}
        (member : ⟨column, value⟩ ∈ upsert.insert.onDuplicate) :
        upsert.insert.rewritten db (upsert.insert.proposed defaults) stored column =
          value.result db (upsert.insert.proposed defaults column) (stored column) :=
      changed (Assignment.change db _ ⟨column, value⟩) (List.mem_map_of_mem member)
    refine ⟨?_, ?_, ?_⟩
    · intro column untouched
      refine kept column fun member => ?_
      rw [assignments, List.map_map] at member
      rcases List.mem_map.1 member with ⟨assignment, present, rfl⟩
      rcases RowChange.mem_duplicateAssignments.1 present with
        ⟨column, value, written, other, free, rfl⟩
      exact untouched ⟨other, free⟩ (List.mem_map_of_mem written)
    · intro column value written free
      have member : ⟨column, .inserted⟩ ∈ upsert.insert.onDuplicate :=
        assignments ▸ RowChange.mem_duplicateAssignments.2
          ⟨column, .literal value, written, free.1, free.2, rfl⟩
      exact (assigned member).trans (proposed.literal column value written)
    · intro column delta written free
      have member : ⟨column, .increment delta⟩ ∈ upsert.insert.onDuplicate :=
        assignments ▸ RowChange.mem_duplicateAssignments.2
          ⟨column, .increment delta, written, free.1, free.2, rfl⟩
      exact assigned member
  · -- With nothing to overwrite, the clause assigns a column to itself.
    rcases nothing with ⟨column, assignment, none⟩
    have same : upsert.insert.rewritten db (upsert.insert.proposed defaults) stored = stored := by
      rw [Insert.rewritten, assignment]
      exact Function.update_eq_self column stored
    have unwritten {column : String} {value : WriteValue}
        (written : (column, value) ∈ upsert.change.fields) : ¬ upsert.Overwrites column := by
      intro free
      have member := RowChange.mem_duplicateAssignments.2
        ⟨column, value, written, free.1, free.2, rfl⟩
      rw [none] at member
      cases member
    rw [same]
    exact ⟨fun column _ => rfl, fun column value written free => absurd free (unwritten written),
      fun column delta written free => absurd free (unwritten written)⟩

theorem effect_run (rows : List StoredRow) : upsert.Effect db rows (upsert.run db rows) := by
  have proposed := adds_proposed upsert (db.defaults rows)
  unfold run Insert.run
  simp only [proposed.identifier]
  split
  · rename_i conflict
    refine .rewritten conflict ?_
    rw [List.forall₂_map_right_iff, List.forall₂_same]
    intro row _
    split
    · exact rewrites_stored db upsert _ _
    · rfl
  · rename_i free
    exact .added (fun row member same => free ⟨row, member, same⟩) proposed

/-! ## Upserts one after another -/

variable {db} {upsert}

/-- An upsert without increments writes given values only. -/
def Plain (upsert : Upsert config) : Prop :=
  ∀ field ∈ upsert.change.fields, ∃ value, field.2 = .literal value

theorem Plain.literal (plain : upsert.Plain) {column : String}
    (written : column ∈ upsert.change.fields.keys) :
    ∃ value, (column, .literal value) ∈ upsert.change.fields := by
  rcases List.mem_map.1 written with ⟨⟨column, value⟩, member, rfl⟩
  rcases plain _ member with ⟨given, rfl⟩
  exact ⟨given, member⟩

theorem Rewrites.identifier {stored after : StoredRow}
    (rewrites : upsert.Rewrites db stored after) :
    after config.identifierKey = stored config.identifierKey :=
  rewrites.kept _ fun free => absurd rfl free.1

/-- The row holds the given values that the upsert may overwrite. -/
def Settled (upsert : Upsert config) (row : StoredRow) : Prop :=
  ∀ column value, (column, .literal value) ∈ upsert.change.fields →
    upsert.Overwrites column → row column = value

/-- A settled row stays as it is. -/
theorem Rewrites.eq_of_settled {row after : StoredRow} (rewrites : upsert.Rewrites db row after)
    (settled : upsert.Settled row) (plain : upsert.Plain) : after = row := by
  funext column
  by_cases written : upsert.Overwrites column ∧ column ∈ upsert.change.fields.keys
  · rcases plain.literal written.2 with ⟨value, member⟩
    rw [rewrites.literal column value member written.1, settled column value member written.1]
  · exact rewrites.kept column fun free member => written ⟨free, member⟩

namespace Effect

variable {id : Json} {rows middle after : List StoredRow}

theorem identifier_eq (named : upsert.change.identifier? config = some id) (defaults : StoredRow) :
    upsert.identifier defaults = id := by
  rw [identifier, named, Option.getD_some]

/-- After an upsert there is a row with its identifier, and all such rows are settled. -/
theorem settled (named : upsert.change.identifier? config = some id)
    (effect : upsert.Effect db rows after) :
    (∃ row ∈ after, row config.identifierKey = id) ∧
      ∀ row ∈ after, row config.identifierKey = id → upsert.Settled row := by
  cases effect with
  | rewritten conflict each =>
      simp only [identifier_eq named] at conflict each
      constructor
      · rcases conflict with ⟨stored, member, same⟩
        rcases exists_right_of_forall₂ each stored member with ⟨row, present, pair⟩
        rw [if_pos same] at pair
        exact ⟨row, present, pair.identifier.trans same⟩
      · intro row member same
        rcases exists_of_forall₂ each row member with ⟨stored, -, pair⟩
        split at pair
        · exact pair.literal
        · rename_i other
          exact absurd (pair ▸ same) other
  | added free new =>
      simp only [identifier_eq named] at free
      constructor
      · exact ⟨_, List.mem_append_right _ List.mem_cons_self,
          new.identifier.trans (identifier_eq named _)⟩
      · intro row member same
        rcases List.mem_append.1 member with old | last
        · exact absurd same (free row old)
        · rw [List.mem_singleton.1 last]
          exact fun column value written _ => new.literal column value written

/-- Where a row with the identifier is there already, an upsert rewrites it and adds none. -/
theorem each_of_present (named : upsert.change.identifier? config = some id)
    (effect : upsert.Effect db rows after)
    (present : ∃ row ∈ rows, row config.identifierKey = id) :
    List.Forall₂
      (fun stored after =>
        if stored config.identifierKey = id then upsert.Rewrites db stored after
        else after = stored)
      rows after := by
  cases effect with
  | rewritten conflict each =>
      simp only [identifier_eq named] at each
      exact each
  | added free new =>
      simp only [identifier_eq named] at free
      rcases present with ⟨row, member, same⟩
      exact absurd same (free row member)

/-- Running an upsert again leaves the table as it is. -/
theorem eq_of_again (named : upsert.change.identifier? config = some id) (plain : upsert.Plain)
    (first : upsert.Effect db rows middle) (again : upsert.Effect db middle after) :
    after = middle := by
  rcases first.settled named with ⟨present, settled⟩
  have each := again.each_of_present named present
  have same : List.Forall₂ (· = ·) middle after := by
    refine (List.forall₂_iff_zip.2 ⟨each.length_eq, fun {row after} paired => ?_⟩)
    have pair := List.forall₂_zip each paired
    split at pair
    · rename_i conflict
      exact (pair.eq_of_settled (settled row (List.of_mem_zip paired).1 conflict) plain).symm
    · exact pair.symm
  rw [List.forall₂_eq_eq_eq] at same
  exact same.symm

/-- An upsert keeps the identifiers of all rows, and the column unless it may overwrite it. -/
theorem keeps {column : String} (named : upsert.change.identifier? config = some id)
    (excluded : column ∈ upsert.excluded) (effect : upsert.Effect db rows after)
    (present : ∃ row ∈ rows, row config.identifierKey = id) :
    List.Forall₂
      (fun stored after => after config.identifierKey = stored config.identifierKey ∧
        after column = stored column)
      rows after := by
  refine (effect.each_of_present named present).imp fun stored after pair => ?_
  split at pair
  · exact ⟨pair.identifier, pair.kept column fun free => absurd excluded free.2⟩
  · rw [pair]
    exact ⟨rfl, rfl⟩

end Effect

/-- A run of upserts on one row keeps a column that all of them exclude. -/
theorem foldl_run_keeps {id : Json} {column : String} {later : List (Upsert config)}
    (excluding : ∀ next ∈ later,
      next.change.identifier? config = some id ∧ column ∈ next.excluded)
    {rows : List StoredRow} (present : ∃ row ∈ rows, row config.identifierKey = id) :
    List.Forall₂
      (fun first last => last config.identifierKey = first config.identifierKey ∧
        last column = first column)
      rows (later.foldl (fun rows next => next.run db rows) rows) := by
  induction later generalizing rows with
  | nil => exact List.forall₂_same.2 fun row _ => ⟨rfl, rfl⟩
  | cons next rest step =>
      rcases excluding next List.mem_cons_self with ⟨named, excluded⟩
      have effect := effect_run db next rows
      have first := effect.keeps named excluded present
      have others := step (fun other member => excluding other (List.mem_cons_of_mem _ member))
        (effect.settled named).1
      refine (forall₂_trans first others).imp ?_
      rintro before after ⟨middle, own, later⟩
      exact ⟨later.1.trans own.1, later.2.trans own.2⟩

end Upsert

/--
An upsert rewrites the rows in conflict or adds a row; one that writes the
identifier and no increments changes nothing when it runs again; and a column
that later upserts on the same row exclude keeps its value.
-/
theorem upsert_effect {config : Config} (db : Database) (upsert : Upsert config) :
    (∀ rows, upsert.Effect db rows (upsert.run db rows)) ∧
      ∀ id, upsert.change.identifier? config = some id →
        (upsert.Plain → ∀ rows, upsert.run db (upsert.run db rows) = upsert.run db rows) ∧
          ∀ (column : String) (later : List (Upsert config)),
            (∀ next ∈ later,
              next.change.identifier? config = some id ∧ column ∈ next.excluded) →
            ∀ rows, (∃ row ∈ upsert.run db rows, row config.identifierKey = id) ∧
              List.Forall₂
                (fun first last => last config.identifierKey = first config.identifierKey ∧
                  last column = first column)
                (upsert.run db rows)
                (later.foldl (fun rows next => next.run db rows) (upsert.run db rows)) := by
  refine ⟨Upsert.effect_run db upsert, fun id named => ⟨fun plain rows => ?_, ?_⟩⟩
  · exact Upsert.Effect.eq_of_again named plain (Upsert.effect_run db upsert rows)
      (Upsert.effect_run db upsert _)
  · intro column later excluding rows
    have present := (Upsert.effect_run db upsert rows).settled named |>.1
    exact ⟨present, Upsert.foldl_run_keeps excluding present⟩

/-- A widget under a new name; the time of its creation is written with its first row only. -/
def namedWidget (name : String) : Upsert {} where
  change :=
    { table := "widgets"
      id := some (.integer 5)
      fields :=
        [("name", .literal (.string name)), ("created_at", .literal (.string "2024-01-01"))] }
  excluded := ["created_at"]
  insert :=
    { table := "widgets"
      columns := ["id", "name", "created_at"]
      values := [.integer 5, .string name, .string "2024-01-01"]
      onDuplicate := [⟨"name", .inserted⟩] }
  distinct := by simp [Entries.keys]
  compiled := by cbv

/-- A database without defaults, in which only whole numbers add up. -/
def plainDatabase : Database where
  plus value delta :=
    match value with
    | .number (.integer stored) => .integer (stored + delta)
    | _ => .null
  defaults _ _ := .null

theorem upsert_effect_widget :
    (namedWidget "first").change.identifier? {} = some (.integer 5) ∧
      (namedWidget "first").Plain ∧
      (namedWidget "first").run plainDatabase ((namedWidget "first").run plainDatabase []) =
        (namedWidget "first").run plainDatabase [] ∧
      List.Forall₂
        (fun first last => last "id" = first "id" ∧ last "created_at" = first "created_at")
        ((namedWidget "first").run plainDatabase [])
        ((namedWidget "second").run plainDatabase
          ((namedWidget "first").run plainDatabase [])) := by
  have plain : (namedWidget "first").Plain := by
    simp [Upsert.Plain, namedWidget]
  have named (name : String) :
      (namedWidget name).change.identifier? {} = some (.integer 5) := by
    simp [namedWidget, RowChange.identifier?, Entries.get?]
  have effect := (upsert_effect plainDatabase (namedWidget "first")).2 (.integer 5) (named "first")
  refine ⟨named "first", plain, effect.1 plain [], ?_⟩
  refine (effect.2 "created_at" [namedWidget "second"] ?_ []).2
  intro next member
  rw [List.mem_singleton.1 member]
  exact ⟨named "second", List.mem_singleton_self "created_at"⟩

end SqlScribe
