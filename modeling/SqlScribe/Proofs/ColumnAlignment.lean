import SqlScribe.Document.RowChange
import SqlScribe.Proofs.Membership
import SqlScribe.Proofs.Upsert

/-!
# Columns and their values

The columns of an INSERT are matched with its values by position, so there has
to be one expression for each column.  The statement has one value for each
column, but in the text an array is the list of its items' literals: it adds as
many expressions as it has items, and shifts all columns after it.

The text of an INSERT or an UPDATE has one expression for each column exactly
if every value that is written is single.  The identifier of a row always is,
because it is checked to be a scalar, and so is an increment.
-/

namespace SqlScribe

open Checked Lexis

/-! ## Lists for columns -/

namespace Lexis

/-- One item for each column, of the kind that the column calls for, and commas between them. -/
def IsListFor (kind : String → List Token → Prop) (columns : List String) (tokens : List Token) :
    Prop :=
  ∃ items, List.Forall₂ kind columns items ∧ tokens = separatedTokens items

/-- A list of what some entries are written as has an item for each, if it is of the right kind. -/
theorem isListFor_iff {α : Type} {kind : String → List Token → Prop}
    (free : ∀ column tokens, kind column tokens → comma ∉ tokens)
    {column : α → String} {written : α → List Token} {entries : List α} :
    IsListFor kind (entries.map column) (separatedTokens (entries.map written)) ↔
      ∀ entry ∈ entries, kind (column entry) (written entry) := by
  constructor
  · rintro ⟨items, kinds, same⟩
    have itemsFree : ∀ item ∈ items, comma ∉ item := by
      intro item member
      rcases exists_of_forall₂ kinds item member with ⟨name, -, right⟩
      exact free name item right
    have lengths : (entries.map written).length = items.length := by
      rw [List.length_map, ← kinds.length_eq, List.length_map]
    cases eq_of_separatedTokens itemsFree lengths same
    rw [List.forall₂_map_left_iff, List.forall₂_map_right_iff, List.forall₂_same] at kinds
    exact kinds
  · intro right
    refine ⟨entries.map written, ?_, rfl⟩
    rw [List.forall₂_map_left_iff, List.forall₂_map_right_iff, List.forall₂_same]
    exact right

/-- The tokens that give a column one value: a literal, or what it has and a number. -/
inductive IsAssignment (column : String) : List Token → Prop
  | literal {tokens : List Token} (value : IsLiteral tokens) :
      IsAssignment column (.name column :: .symbol "=" :: tokens)
  | increment {tokens : List Token} (delta : IsLiteral tokens) :
      IsAssignment column
        (.name column :: .symbol "=" :: .name column :: .symbol "+" :: .symbol "(" ::
          tokens ++ [.symbol ")"])

theorem IsAssignment.comma_free {column : String} {tokens : List Token}
    (assignment : IsAssignment column tokens) : comma ∉ tokens := by
  cases assignment with
  | literal value =>
      have rest := value.comma_free
      simp_all [comma]
  | increment delta =>
      have rest := delta.comma_free
      simp_all [comma]

mutual

/-- Values hold no names. -/
theorem name_not_mem_value (name : String) : ∀ value : Json, .name name ∉ valueTokens value
  | .null | .bool true | .bool false | .string _ | .object _ => by simp [valueTokens]
  | .number value => by
      rw [valueTokens]
      unfold numberTokens
      split <;> simp
  | .array items => name_not_mem_items name items

theorem name_not_mem_items (name : String) : ∀ items : List Json, .name name ∉ itemTokens items
  | [] => List.not_mem_nil
  | [value] => name_not_mem_value name value
  | value :: next :: rest => by
      have own := name_not_mem_value name value
      have others := name_not_mem_items name (next :: rest)
      simp [itemTokens, own, others]

end

end Lexis

/-! ## Written values -/

/-- Whether a written value is one expression. -/
def WriteValue.isSingle : WriteValue → Bool
  | .literal value => value.isSingle
  | .increment _ => true

theorem WriteValue.isSingle_inserted (value : WriteValue) :
    value.inserted.isSingle = value.isSingle := by
  cases value <;> rfl

/-- The assignment of a written value gives the column one value exactly if the value is single. -/
theorem WriteValue.isAssignment_iff {column : String} {value : WriteValue} :
    IsAssignment column (Assignment.tokens ⟨column, value.assigned⟩) ↔ value.isSingle := by
  cases value with
  | literal value =>
      rw [isSingle, ← isLiteral_iff]
      refine ⟨fun assignment => ?_, .literal⟩
      have tokens : Assignment.tokens ⟨column, (WriteValue.literal value).assigned⟩ =
          .name column :: .symbol "=" :: valueTokens value := rfl
      generalize same : valueTokens value = given at tokens ⊢
      rw [tokens] at assignment
      cases assignment with
      | literal literal => exact literal
      | increment _ =>
          refine absurd ?_ (name_not_mem_value column value)
          rw [same]
          exact List.mem_cons_self
  | increment delta => exact iff_of_true (.increment (isLiteral_number _)) rfl

/-! ## Statements -/

namespace RowChange

variable {config : Config} {change : RowChange} {excluded : List String}

theorem isSingle_of_isIdentity {value : Json} (identity : value.IsIdentity) : value.isSingle := by
  cases identity <;> rfl

/--
The values of an inserted row are single exactly if all that is written is
single; an identifier beside the fields is one literal, because it is a scalar.
-/
theorem isSingle_insertedRow (insertable : change.Insertable config) :
    (∀ entry ∈ change.insertedRow config, entry.2.isSingle) ↔
      ∀ field ∈ change.fields, field.2.isSingle := by
  constructor
  · intro single field member
    rw [← WriteValue.isSingle_inserted]
    exact single (field.1, field.2.inserted) (mem_insertedRow.2 (.inr ⟨field.2, member, rfl⟩))
  · rintro single ⟨column, value⟩ member
    rcases mem_insertedRow.1 member with ⟨-, beside, given⟩ | ⟨written, stored, rfl⟩
    · exact isSingle_of_isIdentity (insertable.id value given beside).2
    · rw [WriteValue.isSingle_inserted]
      exact single (column, written) stored

/-- What the text of an INSERT says of the columns of a row and their values. -/
structure InsertsRow (config : Config) (change : RowChange) (tokens : List Token) : Prop where
  /-- The columns and the values of the row stand in the same order. -/
  text : ∃ assignments, tokens =
    .word "INSERT" :: .word "INTO" :: .name change.table :: .symbol "(" ::
        nameTokens ((change.insertedRow config).map Prod.fst) ++
      .symbol ")" :: .word "VALUES" :: .symbol "(" ::
        separatedTokens ((change.insertedRow config).map fun entry => valueTokens entry.2) ++
      .symbol ")" :: Assignment.onDuplicateTokens assignments
  /-- There is one literal for each column exactly if all that is written is single. -/
  aligned :
    IsListFor (fun _ => IsLiteral) ((change.insertedRow config).map Prod.fst)
        (separatedTokens ((change.insertedRow config).map fun entry => valueTokens entry.2)) ↔
      ∀ field ∈ change.fields, field.2.isSingle

/-- What the text of an UPDATE says of the columns of a change and what is written to them. -/
structure UpdatesFields (change : RowChange) (tokens : List Token) : Prop where
  /-- Each column is named next to what is written to it. -/
  text : ∃ condition : Expr, tokens =
    .word "UPDATE" :: .name change.table :: .word "SET" ::
        separatedTokens (change.fields.map fun field =>
          Assignment.tokens ⟨field.1, field.2.assigned⟩) ++
      .word "WHERE" :: condition.tokens
  /-- There is one assignment for each column exactly if all that is written is single. -/
  aligned :
    IsListFor IsAssignment (change.fields.map Prod.fst)
        (separatedTokens (change.fields.map fun field =>
          Assignment.tokens ⟨field.1, field.2.assigned⟩)) ↔
      ∀ field ∈ change.fields, field.2.isSingle

theorem insertsRow_of_insertable (insertable : change.Insertable config)
    (assignments : List Assignment) :
    InsertsRow config change
      (Insert.tokens ⟨change.table, (change.insertedRow config).map Prod.fst,
        (change.insertedRow config).map Prod.snd, assignments⟩) where
  text := by
    refine ⟨assignments, ?_⟩
    simp only [Insert.tokens, List.map_map, Function.comp_def]
  aligned := by
    rw [isListFor_iff fun _ _ literal => literal.comma_free, ← isSingle_insertedRow insertable]
    exact forall₂_congr fun entry _ => isLiteral_iff

theorem updatesFields (change : RowChange) (condition : Expr) :
    UpdatesFields change
      (Update.tokens ⟨change.table,
        change.fields.map fun field => ⟨field.1, field.2.assigned⟩, condition⟩) where
  text := by
    refine ⟨condition, ?_⟩
    rw [Update.tokens, List.map_map]
    rfl
  aligned := by
    rw [isListFor_iff fun _ _ assignment => assignment.comma_free]
    exact forall₂_congr fun field _ => WriteValue.isAssignment_iff

end RowChange

/--
The text of an INSERT has one expression for each column, and the text of an
UPDATE one assignment, exactly if all that is written is single.
-/
theorem columns_aligned_iff {config : Config} {change : RowChange} {operation : RowOperation}
    {excluded : List String} {sql : String}
    (written : (change.toSql config operation excluded).1 = .ok sql) :
    ∃ tokens, lex sql = .ok tokens ∧
      (operation = .create ∨ operation = .upsert → change.InsertsRow config tokens) ∧
      (operation = .update → change.UpdatesFields tokens) := by
  rcases RowChange.tokens_of_toSql written with ⟨statement, stated, -, tokens⟩
  refine ⟨statement.tokens, tokens, ?_, ?_⟩
  · rintro (rfl | rfl)
    · cases RowChange.statement_eq_ok.1 stated with
      | create insertable => exact RowChange.insertsRow_of_insertable insertable []
    · cases RowChange.statement_eq_ok.1 stated with
      | upsert upsertable row =>
          exact RowChange.insertsRow_of_insertable upsertable.toInsertable _
  · rintro rfl
    cases RowChange.statement_eq_ok.1 stated with
    | update updatable given => exact RowChange.updatesFields change _

/-- A row with an array of one item, which is single, and an increment. -/
def taggedRow : RowChange :=
  { table := "t"
    id := some (.integer 7)
    fields := [("tags", .literal (.array [.string "a"])), ("hits", .increment 2)] }

def taggedRowText : String :=
  "INSERT INTO \x60t\x60 (\x60id\x60, \x60tags\x60, \x60hits\x60) VALUES (7, \x27a\x27, 2)"

theorem columns_aligned_iff_taggedRow :
    (taggedRow.toSql {} .create []).1 = .ok taggedRowText ∧
      ∃ tokens, lex taggedRowText = .ok tokens ∧ taggedRow.InsertsRow {} tokens ∧
        IsListFor (fun _ => IsLiteral) ["id", "tags", "hits"]
          [.number "7", .symbol ",", .string "a", .symbol ",", .number "2"] := by
  have written : (taggedRow.toSql {} .create []).1 = .ok taggedRowText := by cbv
  rcases columns_aligned_iff written with ⟨tokens, read, inserts, -⟩
  have row := inserts (.inl rfl)
  exact ⟨written, tokens, read, row, row.aligned.2 (by decide)⟩

/-- A row with an array of two items. -/
def pairedRow : Json :=
  .object
    [("table", .string "t"),
      ("fields", .object
        [("a", .array [.integer 1, .integer 2]), ("b", .string "x")])]

def pairedRowText : String := "INSERT INTO \x60t\x60 (\x60a\x60, \x60b\x60) VALUES (1, 2, \x27x\x27)"

/-- The tokens of three values in two columns. -/
def pairedTokens : List Token :=
  [.number "1", .symbol ",", .number "2", .symbol ",", .string "x"]

/-- An accepted row can get an INSERT with more expressions than columns. -/
theorem columns_misaligned_pairedRow :
    ∃ request, Document.rowRequest pairedRow = .ok request ∧
      (request.change.toSql {} .create request.excluded).1 = .ok pairedRowText ∧
      lex pairedRowText = .ok
        ([.word "INSERT", .word "INTO", .name "t", .symbol "(", .name "a", .symbol ",",
          .name "b", .symbol ")", .word "VALUES", .symbol "("] ++ pairedTokens ++
            [.symbol ")"]) ∧
      ¬ IsListFor (fun _ => IsLiteral) ["a", "b"] pairedTokens := by
  let row : List (String × Json) :=
    [("a", .array [.integer 1, .integer 2]), ("b", .string "x")]
  let request : Document.RowRequest :=
    { change := { table := "t", fields := row.map fun entry => (entry.1, .literal entry.2) } }
  refine ⟨request, by cbv, by cbv, by cbv, fun listed => ?_⟩
  have whole : IsListFor (fun _ => IsLiteral) (row.map Prod.fst)
      (separatedTokens (row.map fun entry => valueTokens entry.2)) := listed
  rw [isListFor_iff fun _ _ literal => literal.comma_free] at whole
  cases isLiteral_iff.1 (whole _ List.mem_cons_self)

end SqlScribe
