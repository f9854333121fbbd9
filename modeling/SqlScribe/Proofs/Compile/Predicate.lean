import SqlScribe.Proofs.Compile.Spec

/-!
# Constraints and their conditions

A constraint is compiled in one of two ways.  A plain one turns its field into
columns and says something about them; one with a query inside compares its
field with the rows of that query, which is compiled in its turn.

`Constraint.yields_of_plain` and `Constraint.yields_inQuery` say so, and
`yields_subquerySelect` says that an embedded query is compiled like a query of
its own, complete with the join that it may need for its column.
-/

namespace SqlScribe

open Compile
open Checked

variable {config : Config} {depth : Nat} {names : Names} {owner field : String}
variable {before after : CompileState}

/-! ## Embedded queries -/

/-- The alias that an embedded query reads its column through without declaring a join for it. -/
def Subquery.implied? (subquery : Subquery) : Option String :=
  match undeclaredAlias? subquery.select (subquery.joins.map JoinSpec.aliasName) with
  | .ok implied => implied
  | .error _ => none

/-- An embedded query as a query of its own, with the join that it needs for its column. -/
def Subquery.completed (config : Config) (subquery : Subquery) : Query :=
  subquery.asQuery config subquery.implied?

theorem undeclaredAlias?_eq_ok
    {select : String} {declared : List String} {implied : Option String} :
    undeclaredAlias? select declared = .ok implied ↔
      ∃ path, ColumnPath.parse select = .ok path ∧
        implied = path.qualifier.filter fun aliasName => !declared.contains aliasName := by
  simp [undeclaredAlias?]

theorem Subquery.implied?_of_parse {subquery : Subquery} {path : ColumnPath}
    (read : ColumnPath.parse subquery.select = .ok path) :
    undeclaredAlias? subquery.select (subquery.joins.map JoinSpec.aliasName) =
      .ok subquery.implied? := by
  unfold implied?
  rw [undeclaredAlias?_eq_ok.2 ⟨path, read, rfl⟩]

/-- A query that selects something resolved the path of it. -/
theorem parse_of_projection {frame : QueryFrame} {projection : Projection} {selection : Selection}
    (read : frame.projection names = .ok projection) (member : selection ∈ frame.selection) :
    ∃ path, ColumnPath.parse selection.path = .ok path := by
  rcases projection_of_frame read with ⟨none, -⟩ | ⟨items, -, -, each⟩
  · rw [none] at member
    cases member
  · rcases exists_right_of_forall₂ each selection member with ⟨item, -, resolved, -⟩
    rcases Names.resolveIn_eq_ok.1 resolved with ⟨path, parsed, -⟩
    exact ⟨path, parsed⟩

/-- An embedded query is compiled like a query of its own, one level deeper. -/
theorem yields_subquerySelect {subquery : Subquery} {select : Select} :
    Yields (subquerySelect config depth names subquery) before select after ↔
      Yields ((subquery.completed config).compileAt config (depth + 1) names.all)
        before select after := by
  simp only [subquerySelect_eq, yields_bind, yields_lift]
  constructor
  · rintro ⟨implied, _, ⟨read, rfl⟩, compiled⟩
    rcases undeclaredAlias?_eq_ok.1 read with ⟨path, parsed, -⟩
    cases read.symm.trans (Subquery.implied?_of_parse parsed)
    exact compiled
  · intro compiled
    rcases yields_compileAt.1 compiled with ⟨_, _, _, _, -, -, projected, -⟩
    rcases parse_of_projection projected (List.mem_singleton_self _) with ⟨path, parsed⟩
    exact ⟨_, before, ⟨Subquery.implied?_of_parse parsed, rfl⟩, compiled⟩

/-! ## Constraints -/

namespace Constraint

/-- Where the text of a constraint may stand; only patterns say so. -/
def affix : Constraint → Affix
  | .matching affix _ => affix
  | _ => .start

/-- What a constraint without a query inside says of its subject. -/
def predicate (subject : Expr) : Constraint → Expr
  | .compare comparison value => .compare subject comparison (.literal value)
  | .matching affix text => .like subject (affix.pattern text)
  | .present expected => .nullCheck subject (!expected)
  | .inList negated values => .inListOrTruth subject values negated
  | .inQuery _ _ => subject

/-- A constraint without a query inside. -/
def Plain (constraint : Constraint) : Prop := ∀ negated query, constraint ≠ .inQuery negated query

theorem plain_or_inQuery (constraint : Constraint) :
    constraint.Plain ∨ ∃ negated query, constraint = .inQuery negated query := by
  cases constraint with
  | inQuery negated query => exact .inr ⟨negated, query, rfl⟩
  | _ => exact .inl fun _ _ => Constraint.noConfusion

/-- Nothing is gathered from the predicate of a plain constraint. -/
theorem predicate_gathered
    {α : Type} {gather : Expr → List α} (gathered : Expr.Gathered gather)
    {constraint : Constraint} {subject : Expr} (plain : constraint.Plain)
    (read : patternSubject config names owner field constraint.affix = .ok subject) :
    gather (constraint.predicate subject) = [] := by
  have bare : gather subject = [] := by
    rcases patternSubject_eq_ok read with ⟨column, -, rfl⟩ | ⟨-, columns, -, rfl⟩
    · exact gathered.column column
    · exact gathered.concat columns
  cases constraint with
  | compare comparison value =>
      rw [predicate, gathered.compare, bare, gathered.literal, List.nil_append]
  | matching place text => rw [predicate, gathered.like, bare]
  | present expected => rw [predicate, gathered.nullCheck, bare]
  | inList negated values =>
      rw [predicate, Expr.inListOrTruth]
      split
      · exact gathered.truth
      · rw [gathered.inList, bare]
  | inQuery negated query => exact absurd rfl (plain negated query)

/-- A plain constraint becomes a predicate on the columns of its field. -/
theorem yields_of_plain {constraint : Constraint} (plain : constraint.Plain) {expr : Expr} :
    Yields (constraintExpr config depth names owner field constraint) before expr after ↔
      ∃ subject, patternSubject config names owner field constraint.affix = .ok subject ∧
        expr = constraint.predicate subject ∧ after = before := by
  cases constraint with
  | inQuery negated query => exact absurd rfl (plain negated query)
  | matching place text =>
      simp only [constraintExpr, affix, predicate, yields_bind, yields_lift, yields_pure]
      constructor
      · rintro ⟨subject, _, ⟨resolved, rfl⟩, rfl, rfl⟩
        exact ⟨subject, resolved, rfl, rfl⟩
      · rintro ⟨subject, resolved, rfl, rfl⟩
        exact ⟨subject, _, ⟨resolved, rfl⟩, rfl, rfl⟩
  | _ =>
      simp only [constraintExpr, affix, predicate, patternSubject, reduceCtorEq, false_and,
        if_false, yields_bind, yields_lift, yields_pure, map_eq_ok]
      constructor
      · rintro ⟨column, _, ⟨resolved, rfl⟩, rfl, rfl⟩
        exact ⟨_, ⟨column, resolved, rfl⟩, rfl, rfl⟩
      · rintro ⟨_, ⟨column, resolved, rfl⟩, rfl, rfl⟩
        exact ⟨column, _, ⟨resolved, rfl⟩, rfl, rfl⟩

/-- A constraint with a query inside becomes the membership in the SELECT of that query. -/
theorem yields_inQuery {negated : Bool} {subquery : Subquery} {expr : Expr} :
    Yields (constraintExpr config depth names owner field (.inQuery negated subquery))
        before expr after ↔
      ∃ column select, names.resolveIn owner field = .ok column ∧
        Yields ((subquery.completed config).compileAt config (depth + 1) names.all)
          before select after ∧
        expr = .inSelect (.column column) select negated := by
  simp only [constraintExpr, yields_bind, yields_lift, yields_pure, yields_subquerySelect]
  constructor
  · rintro ⟨column, _, ⟨resolved, rfl⟩, select, _, compiled, rfl, rfl⟩
    exact ⟨column, select, resolved, compiled, rfl⟩
  · rintro ⟨column, select, resolved, compiled, rfl⟩
    exact ⟨column, _, ⟨resolved, rfl⟩, select, after, compiled, rfl, rfl⟩

end Constraint

end SqlScribe
