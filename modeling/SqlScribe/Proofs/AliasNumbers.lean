import Mathlib.Data.Nat.Digits.Defs
import SqlScribe.Proofs.EmbeddedQueries

/-!
# How long generated aliases are

The depth and the number in a generated alias are at most the count of the names
that are in use when the alias is taken.  `Query.numbered` bounds both by
`Query.nameCount`, the names that a query and the queries inside it put in use.

A query that fits into the memory of a machine has therefore short aliases:
`IsNumbered.hasNameForm`.
-/

namespace SqlScribe

open Compile
open Checked

/-- The name is a generated alias whose depth and number are at most this bound. -/
def IsNumbered (bound : Nat) (name : String) : Prop :=
  ∃ depth number, name = generatedAlias depth number ∧ depth ≤ bound ∧ number ≤ bound

theorem IsNumbered.mono {bound larger : Nat} {name : String} (numbered : IsNumbered bound name)
    (smaller : bound ≤ larger) : IsNumbered larger name := by
  rcases numbered with ⟨depth, number, rfl, depths, numbers⟩
  exact ⟨depth, number, rfl, Nat.le_trans depths smaller, Nat.le_trans numbers smaller⟩

/-! ## The form of generated aliases -/

theorem isIdentifierPart_decimal {number : Nat} {c : Char} (digit : c ∈ Nat.toDigits 10 number) :
    isIdentifierPart c := by
  have decimal := Nat.isDigit_of_mem_toDigits (by decide) (by decide) digit
  simp [isIdentifierPart, Char.isAlphanum, decimal]

theorem byteLength_decimal (number : Nat) :
    Text.byteLength (Nat.toDigits 10 number) = (Nat.toDigits 10 number).length :=
  byteLength_of_parts fun _ => isIdentifierPart_decimal

theorem toList_generatedAlias (depth number : Nat) :
    (generatedAlias depth number).toList =
      's' :: 'q' :: (Nat.toDigits 10 depth ++ '_' :: Nat.toDigits 10 number) := by
  simp [generatedAlias]

theorem spelledAsName_generatedAlias (depth number : Nat) :
    SpelledAsName (generatedAlias depth number) := by
  refine ⟨'s', _, toList_generatedAlias depth number, .inr (.inr (by decide)), fun c member => ?_⟩
  rw [← isIdentifierPart_iff]
  rcases List.mem_cons.1 member with rfl | member
  · decide
  · rcases List.mem_append.1 member with digit | member
    · exact isIdentifierPart_decimal digit
    · rcases List.mem_cons.1 member with rfl | digit
      · decide
      · exact isIdentifierPart_decimal digit

/-- With a depth and a number of 64 bits, a generated alias is a name that the database takes. -/
theorem IsNumbered.hasNameForm {bound : Nat} {name : String} (numbered : IsNumbered bound name)
    (small : bound < 2 ^ 64) : HasNameForm name := by
  rcases numbered with ⟨depth, number, rfl, depths, numbers⟩
  refine ⟨spelledAsName_generatedAlias depth number, ?_⟩
  have digits {value : Nat} (within : value ≤ bound) : (Nat.toDigits 10 value).length ≤ 20 :=
    Nat.toDigits_length 10 value 20 (by decide) (by omega)
  have front := digits depths
  have back := digits numbers
  rw [← byteLength_toList, toList_generatedAlias]
  simp only [Text.byteLength_cons, Text.byteLength_append, byteLength_decimal]
  have single : 's'.utf8Size + 'q'.utf8Size + '_'.utf8Size = 3 := rfl
  omega

/-! ## Names in use -/

/-- The names that an embedded query puts in use: for its table, two, and for its joins. -/
def EmbeddedQuery.nameCount (embedded : EmbeddedQuery) : Nat := 3 + embedded.query.joins.length

/-- How many names a list of embedded queries puts in use at most. -/
def nameCount (queries : List EmbeddedQuery) : Nat := (queries.map EmbeddedQuery.nameCount).sum

/-- How many names a query puts in use at most, with the queries inside it. -/
def Query.nameCount (query : Query) : Nat :=
  2 + query.joins.length + SqlScribe.nameCount (query.embeddedQueries 1)

theorem nameCount_append {first second : List EmbeddedQuery} :
    nameCount (first ++ second) = nameCount first + nameCount second := by
  simp [nameCount]

/-- Enough names are taken for a query at this depth, and numbers were not skipped without need. -/
structure CompileState.Supplies (depth : Nat) (state : CompileState) : Prop where
  filled : state.scope.Filled
  enough : depth ≤ state.scope.taken.length

/-- Between the states these aliases were taken, and not more names than the count. -/
structure CompileState.Numbers
    (before : CompileState) (count : Nat) (aliases : List String) (after : CompileState) : Prop where
  filled : after.scope.Filled
  grown : before.scope.taken.length ≤ after.scope.taken.length
  bounded : after.scope.taken.length ≤ before.scope.taken.length + count
  numbered : ∀ aliasName ∈ aliases, IsNumbered after.scope.taken.length aliasName

namespace CompileState.Numbers

variable {before middle after : CompileState} {count more depth : Nat}
variable {early late : List String}

theorem supplies (numbers : before.Numbers count early after) (supplied : before.Supplies depth) :
    after.Supplies depth :=
  ⟨numbers.filled, Nat.le_trans supplied.enough numbers.grown⟩

theorem nothing (filled : before.scope.Filled) : before.Numbers 0 [] before :=
  ⟨filled, Nat.le_refl _, Nat.le_refl _, List.forall_mem_nil _⟩

theorem mono (numbers : before.Numbers count early after) (fewer : count ≤ more) :
    before.Numbers more early after :=
  { numbers with bounded := Nat.le_trans numbers.bounded (Nat.add_le_add_left fewer _) }

theorem append (own : before.Numbers count early middle)
    (other : middle.Numbers more late after) :
    before.Numbers (count + more) (early ++ late) after where
  filled := other.filled
  grown := Nat.le_trans own.grown other.grown
  bounded := by
    have front := own.bounded
    have back := other.bounded
    omega
  numbered := List.forall_mem_append.2
    ⟨fun aliasName member => (own.numbered aliasName member).mono other.grown, other.numbered⟩

/-- A list of compilations takes what each of them takes. -/
theorem of_steps {α β : Type} {step : α → CompileState → β → CompileState → Prop}
    {queries : α → List EmbeddedQuery} {aliases : β → List String}
    {elements : List α} {values : List β}
    (supplied : before.Supplies depth)
    (steps : Steps step elements before values after)
    (each : ∀ element ∈ elements, ∀ start value final, start.Supplies depth →
      step element start value final →
        start.Numbers (nameCount (queries element)) (aliases value) final) :
    before.Numbers (nameCount (elements.flatMap queries)) (values.flatMap aliases) after := by
  induction steps with
  | nil => exact nothing supplied.filled
  | cons head tail induct =>
      rw [List.flatMap_cons, List.flatMap_cons, nameCount_append]
      have first := each _ List.mem_cons_self _ _ _ supplied head
      exact first.append (induct (first.supplies supplied) fun element member =>
        each element (List.mem_cons_of_mem _ member))

/-- A report changes nothing about names. -/
theorem reported (numbers : before.Numbers count early after) (query : Query) :
    before.Numbers count early (query.reported after) := by
  unfold Query.reported
  split
  · exact ⟨numbers.filled, numbers.grown, numbers.bounded, numbers.numbered⟩
  · exact numbers

end CompileState.Numbers

/-! ## Compilations -/

variable {config : Config} {depth level : Nat} {names : Names} {owner : String}
variable {before after : CompileState}

/-- Wherever the constraint is compiled, its aliases have small numbers. -/
def Constraint.NumbersOwn (config : Config) (constraint : Constraint) : Prop :=
  ∀ {depth level : Nat} {names : Names} {owner field : String} {before : CompileState}
    {expr : Expr} {after : CompileState},
    before.Supplies (depth + 1) →
    Yields (constraintExpr config depth names owner field constraint) before expr after →
    before.Numbers (nameCount (constraint.embeddedQueries level)) expr.fromAliases after

theorem numbers_of_conditions {entries : List FieldConstraints} {groups : List (List Expr)}
    (each : ∀ entry ∈ entries, ∀ constraint ∈ entry.constraints, constraint.NumbersOwn config)
    (supplied : before.Supplies (depth + 1))
    (steps : ConditionSteps config depth names owner entries before groups after) :
    before.Numbers (nameCount (FieldConstraints.embeddedQueries level entries))
      (groups.flatMap fun group => group.flatMap Expr.fromAliases) after := by
  rw [FieldConstraints.embeddedQueries_eq]
  refine .of_steps supplied steps fun entry present _ _ _ reached fieldSteps => ?_
  exact .of_steps reached fieldSteps fun constraint inside _ _ _ further compiled =>
    each entry present constraint inside further compiled

theorem JoinSpec.numbers_of_yields {earlier : List String} {join : JoinSpec} {node : Join}
    (each : ∀ entry ∈ join.entries, ∀ constraint ∈ entry.constraints,
      constraint.NumbersOwn config)
    (supplied : before.Supplies (depth + 1))
    (yields : Yields (joinNode config depth names earlier join) before node after) :
    before.Numbers (nameCount (FieldConstraints.embeddedQueries level join.entries))
      node.condition.fromAliases after := by
  rcases yields_joinNode.1 yields with ⟨-, via | constrained⟩
  · rcases via with ⟨_, -, none, joined, rfl⟩
    rcases joinVia_eq_ok.1 joined with ⟨path, -, -, -, rfl⟩
    rw [none]
    exact .nothing supplied.filled
  · rcases constrained with ⟨groups, -, -, -, rfl, steps⟩
    rw [fromAliases_onCondition]
    exact numbers_of_conditions each supplied steps

/-- A query takes its table's name, its joins' aliases, and an alias with a small number. -/
theorem QueryFrame.numbers_of_source {frame : QueryFrame} {source : TableRef}
    (supplied : before.Supplies depth)
    (yields : Yields (frame.source config depth) before source after) :
    before.Numbers (2 + frame.aliases.length) source.aliasName.toList after ∧
      after.Supplies (depth + 1) := by
  rcases supplied with ⟨filled, enough⟩
  have reserved : (frame.reserved before.scope).Filled :=
    (filled.reserve frame.table).foldl_reserve frame.aliases
  have count : (frame.reserved before.scope).taken.length =
      before.scope.taken.length + 1 + frame.aliases.length :=
    AliasScope.length_taken_foldl_reserve
  have given := (yields_source.1 yields).2.2.2
  split at given
  · rcases given with ⟨rfl, rfl⟩
    have more : ((frame.reserved before.scope).allocate depth).2.taken.length =
        (frame.reserved before.scope).taken.length + 1 := rfl
    have small := reserved.freeNumber_le depth
    have numbered : IsNumbered ((frame.reserved before.scope).allocate depth).2.taken.length
        ((frame.reserved before.scope).allocate depth).1 :=
      ⟨depth, _, rfl, by omega, by omega⟩
    refine ⟨⟨reserved.allocate depth, ?_, ?_, List.forall_mem_singleton.2 numbered⟩,
      reserved.allocate depth, ?_⟩
    all_goals
      dsimp only
      omega
  · rcases given with ⟨rfl, rfl⟩
    refine ⟨⟨reserved, ?_, ?_, List.forall_mem_nil _⟩, reserved, ?_⟩
    all_goals
      dsimp only
      omega

theorem JoinSpec.flatMap_withEarlier {α : Type} {gather : JoinSpec → List α}
    {earlier : List String} {joins : List JoinSpec} :
    (withEarlier earlier joins).flatMap (fun entry => gather entry.2) = joins.flatMap gather := by
  induction joins generalizing earlier with
  | nil => rfl
  | cons join rest step => rw [withEarlier, List.flatMap_cons, List.flatMap_cons, step]

variable {query : Query} {select : Select}

/-- A query takes the names of its own tables, and what its joins and conditions take. -/
theorem Query.numbers_of_yields {enclosing : List String} (level : Nat)
    (each : ∀ constraint ∈ query.constraints, constraint.NumbersOwn config)
    (supplied : before.Supplies depth)
    (yields : Yields (query.compileAt config depth enclosing) before select after) :
    before.Numbers (2 + query.joins.length + SqlScribe.nameCount (query.embeddedQueries level))
      select.fromAliases after := by
  rcases yields_compileAt.1 yields with ⟨named, joined, filtered, groups, sourced, joining, -,
    filtering, condition, -, -, rfl⟩
  rcases QueryFrame.numbers_of_source supplied sourced with ⟨source, ready⟩
  have joins : named.Numbers (SqlScribe.nameCount (JoinSpec.embeddedQueries level query.joins))
      (select.joins.flatMap fun node => node.condition.fromAliases) joined := by
    rw [JoinSpec.embeddedQueries_eq, ← JoinSpec.flatMap_withEarlier]
    exact .of_steps ready joining fun entry member _ _ _ reached compiled =>
      JoinSpec.numbers_of_yields (fun _ present constraint inside => each constraint
        (mem_constraints_of_join (JoinSpec.mem_withEarlier member).1 present inside))
        reached compiled
  have conditions : joined.Numbers
      (SqlScribe.nameCount (FieldConstraints.embeddedQueries level query.conditions.entries))
      (groups.flatMap fun group => group.flatMap Expr.fromAliases) filtered :=
    numbers_of_conditions (fun _ present constraint inside =>
      each constraint (mem_constraints_of_condition present inside)) (joins.supplies ready) filtering
  have declared : query.frame.aliases.length = query.joins.length := List.length_map _
  rw [declared] at source
  rw [Select.fromAliases_eq, Select.innerAliases, Join.allFromAliases_eq, condition,
    clauseFromAliases_whereClause, Query.embeddedQueries, nameCount_append]
  exact (source.append (joins.append conditions)).reported query

/-- An embedded query needs at most one join more than it declares. -/
theorem Subquery.length_joins_completed (config : Config) (subquery : Subquery) :
    (subquery.completed config).joins.length ≤ subquery.joins.length + 1 := by
  rw [completed]
  cases subquery.implied? <;> simp [asQuery]

/-- A constraint takes aliases with small numbers. -/
theorem Constraint.numbersOwn (constraint : Constraint) : constraint.NumbersOwn config := by
  induction constraint using Constraint.query_induction config with
  | plain constraint plain =>
      intro depth level names owner field before expr after supplied yields
      rcases (yields_of_plain plain).1 yields with ⟨subject, read, rfl, rfl⟩
      rw [fromAliases_of_plain plain read, embeddedQueries_of_plain plain]
      exact .nothing supplied.filled
  | inQuery negated subquery inside =>
      intro depth level names owner field before expr after supplied yields
      rcases yields_inQuery.1 yields with ⟨column, select, -, compiled, rfl⟩
      refine (Query.numbers_of_yields (level + 1) inside supplied compiled).mono ?_
      have joins := subquery.length_joins_completed config
      have counted : nameCount ((inQuery negated subquery).embeddedQueries level) =
          3 + subquery.joins.length + nameCount (subquery.embeddedQueries (level + 1)) := rfl
      rw [Subquery.completed, Subquery.embeddedQueries_asQuery, counted]
      rw [Subquery.completed] at joins
      omega

/-- The aliases of a statement have depths and numbers that are bounded by its names. -/
theorem Query.numbered (compiled : (query.statement config).1 = .ok select) :
    ∀ aliasName ∈ select.fromAliases, IsNumbered query.nameCount aliasName := by
  rcases statement_eq_ok.1 compiled with ⟨after, yields⟩
  have supplied : CompileState.Supplies 0 ⟨.empty, []⟩ :=
    ⟨AliasScope.filled_empty, Nat.le_refl 0⟩
  have numbers := numbers_of_yields 1 (fun constraint _ => constraint.numbersOwn) supplied yields
  have small : after.scope.taken.length ≤ query.nameCount := by
    have bounded := numbers.bounded
    rw [nameCount]
    simpa [AliasScope.empty] using bounded
  exact fun aliasName member => (numbers.numbered aliasName member).mono small

end SqlScribe
