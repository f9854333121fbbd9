import SqlScribe.Proofs.ValidNames

/-!
# Operations that read the same rows

Only `find` is compiled as it was asked for; `first` and `count` change the
SELECT afterwards.  They fail where `find` fails, since a SELECT always has a
text.

A text consists of what is returned, the clauses for the rows, and the clauses
for their order and their part.  The change for `first` is the same as a limit
of one row before compiling, and the change for `count` leaves the clauses for
the rows alone, with all queries inside them.
-/

namespace SqlScribe

open Compile
open Checked

/-! ## The clauses of a SELECT -/

namespace Select

/-- What a SELECT begins with: what it returns. -/
def opening (select : Select) : List Fragment :=
  .code "SELECT " :: select.projection.fragments

/-- The clauses that say which rows are read: FROM, the JOINs and WHERE. -/
def rowClauses (select : Select) : List Fragment :=
  .code " FROM " :: select.source.fragments ++ Join.clauses select.joins ++
    match select.condition with
    | none => []
    | some condition => .code " WHERE " :: condition.fragments

/-- The clauses about the rows that were found: ORDER BY and LIMIT. -/
def pageClauses (select : Select) : List Fragment :=
  OrderKey.clause select.order ++ select.limit.clause

theorem fragments_eq (select : Select) :
    select.fragments = select.opening ++ select.rowClauses ++ select.pageClauses := by
  rcases select with ⟨projection, source, joins, _ | condition, order, limit⟩ <;>
    simp [fragments, opening, rowClauses, pageClauses]

end Select

/-! ## A limit before and after compiling -/

namespace Compile

variable {α β : Type}

/-- Compilations that differ in what becomes of their values differ so after the same first step. -/
theorem outcome_bind_map
    {first : Compile α} {next other : α → Compile β} {change : β → β}
    (agree : ∀ middle state,
      (outcome (other middle) state).1 = (outcome (next middle) state).1.map change)
    (before : CompileState) :
    (outcome (first >>= other) before).1 = (outcome (first >>= next) before).1.map change := by
  rw [outcome_bind, outcome_bind]
  rcases outcome first before with ⟨_ | middle, state⟩
  · rfl
  · exact agree middle state

end Compile

namespace Query

variable {config : Config} {query : Query} {select : Select}

/-- A limit makes no difference to a SELECT but that it stands there. -/
theorem statement_limited (count : Nat) :
    ({ query with limit := some count }.statement config).1 =
      (query.statement config).1.map fun select =>
        { select with limit := ⟨select.limit.skip, some count⟩ } := by
  show (outcome (Query.compile config { query with limit := some count }) ⟨.empty, []⟩).1 =
    (outcome (query.compile config) ⟨.empty, []⟩).1.map _
  unfold compile QueryFrame.assemble
  refine outcome_bind_map (fun source _ => ?_) _
  refine outcome_bind_map (fun joins _ => ?_) _
  refine outcome_bind_map (fun projection _ => ?_) _
  refine outcome_bind_map (fun conditions _ => ?_) _
  refine outcome_bind_map (fun order _ => ?_) _
  -- The last step reports a missing limit, which changes no value.
  rcases query with ⟨_, _, _, _, _, _ | skip, _ | limit, _⟩ <;> rfl

/-- An operation asks for the rows that the query asks for. -/
theorem rowClauses_adapted (operation : ReadOperation) :
    (adapted select operation).rowClauses = select.rowClauses := by
  cases operation <;> rfl

/-- The text of an operation consists of its own opening, the rows, and its own last clauses. -/
theorem exists_clauses
    (compiled : (query.statement config).1 = .ok select) (operation : ReadOperation) :
    ∃ opening rows page,
      Fragment.texts (adapted select operation).opening = .ok opening ∧
        Fragment.texts select.rowClauses = .ok rows ∧
        Fragment.texts (adapted select operation).pageClauses = .ok page ∧
        (query.toSql config operation).1 = .ok (String.ofList (opening ++ rows ++ page)) := by
  have statement : (Request.read query operation).statement config =
      .ok (.select (adapted select operation)) := by
    rw [Request.statement, compiled]
    rfl
  rcases Request.exists_toSql statement with ⟨sql, text, reached⟩
  rcases map_eq_ok.1 text with ⟨characters, whole, rfl⟩
  rw [Statement.fragments, Select.fragments_eq, rowClauses_adapted] at whole
  rcases Lexis.texts_append.1 whole with ⟨front, page, first, last, rfl⟩
  rcases Lexis.texts_append.1 first with ⟨opening, rows, begun, between, rfl⟩
  exact ⟨opening, rows, page, begun, between, last, reached⟩

/-- A count returns the number of rows, and says nothing about their order and their part. -/
theorem count_clauses (select : Select) :
    Fragment.texts (adapted select .count).opening = .ok "SELECT COUNT(*) AS `count`".toList ∧
      Fragment.texts (adapted select .count).pageClauses = .ok [] :=
  ⟨rfl, rfl⟩

end Query

/--
The operations on a query all fail in the same way, or all have a text.  Then
the texts of `find` and `first` differ in nothing but the last clauses, `first`
has the text that `find` has for one row, and `count` has the rows of `find`
after its own opening and nothing after them.
-/
theorem read_operations_agree (config : Config) (query : Query) :
    ((∃ cause, ∀ operation, (query.toSql config operation).1 = .error cause) ∨
      ∃ select opening rows page single,
        (query.statement config).1 = .ok select ∧
          Fragment.texts select.opening = .ok opening ∧
          Fragment.texts select.rowClauses = .ok rows ∧
          Fragment.texts select.pageClauses = .ok page ∧
          Fragment.texts (Query.adapted select .first).pageClauses = .ok single ∧
          (query.toSql config .find).1 = .ok (String.ofList (opening ++ rows ++ page)) ∧
          (query.toSql config .first).1 = .ok (String.ofList (opening ++ rows ++ single)) ∧
          (query.toSql config .count).1 =
            .ok (String.ofList ("SELECT COUNT(*) AS `count`".toList ++ rows))) ∧
      (query.toSql config .first).1 = ({ query with limit := some 1 }.toSql config .find).1 := by
  constructor
  · cases compiled : (query.statement config).1 with
    | error cause =>
        refine .inl ⟨cause, fun operation => ?_⟩
        rw [Query.toSql_eq, compiled]
        rfl
    | ok select =>
        rcases Query.exists_clauses compiled .find with
          ⟨opening, rows, page, begun, listed, ended, found⟩
        rcases Query.exists_clauses compiled .first with ⟨_, _, single, again, same, last, first⟩
        rcases Query.exists_clauses compiled .count with ⟨_, _, _, header, sameRows, none, count⟩
        cases begun.symm.trans again
        cases listed.symm.trans same
        cases listed.symm.trans sameRows
        cases (Query.count_clauses select).1.symm.trans header
        cases (Query.count_clauses select).2.symm.trans none
        rw [List.append_nil] at count
        exact .inr ⟨select, opening, rows, page, single, rfl, begun, listed, ended, last, found,
          first, count⟩
  · rw [Query.toSql_eq, Query.toSql_eq, Query.statement_limited]
    cases (query.statement config).1 <;> rfl

end SqlScribe
