import Mathlib
import SqlScribe.Proofs.Compile.Induction

/-!
# The scope of columns

Every column of a compiled SELECT carries a qualifier, and SQL can see that
name where the column stands.  A condition of a join sees the joins up to its
own one, and an embedded SELECT sees what its place in the outer one sees.

A path is written in a query and becomes a column in its SELECT.  `Resolves`
follows both trees together: a path without a qualifier belongs to the table of
its own query, or to the joined table among the constraints of a join.
-/

namespace SqlScribe

open Checked

/-! ## Names in scope -/

/-- The column is qualified by one of these names. -/
def ColumnRef.Scoped (names : List String) (column : ColumnRef) : Prop :=
  ∃ name ∈ names, column.qualifier = some name

/-- The columns that a SELECT returns. -/
def Projection.selected : Projection → List ColumnRef
  | .columns items => items.map SelectItem.column
  | _ => []

mutual

/-- All columns of the condition are qualified by names in scope. -/
inductive Expr.Scoped : List String → Expr → Prop where
  | column {names column} (own : column.Scoped names) : Expr.Scoped names (.column column)
  | concat {names columns} (own : ∀ column ∈ columns, column.Scoped names) :
      Expr.Scoped names (.concat columns)
  | literal {names value} : Expr.Scoped names (.literal value)
  | compare {names left comparison right}
      (first : Expr.Scoped names left) (second : Expr.Scoped names right) :
      Expr.Scoped names (.compare left comparison right)
  | like {names subject pattern} (own : Expr.Scoped names subject) :
      Expr.Scoped names (.like subject pattern)
  | nullCheck {names subject isNull} (own : Expr.Scoped names subject) :
      Expr.Scoped names (.nullCheck subject isNull)
  | inList {names subject values negated} (own : Expr.Scoped names subject) :
      Expr.Scoped names (.inList subject values negated)
  | inSelect {names subject query negated}
      (own : Expr.Scoped names subject) (inner : Select.Scoped names query) :
      Expr.Scoped names (.inSelect subject query negated)
  | and {names parts} (each : ∀ part ∈ parts, Expr.Scoped names part) :
      Expr.Scoped names (.and parts)
  | group {names inner} (own : Expr.Scoped names inner) : Expr.Scoped names (.group inner)
  | truth {names} : Expr.Scoped names .truth

/-- All columns of the SELECT are qualified by names of its own or by names around it. -/
inductive Select.Scoped : List String → Select → Prop where
  | select {outer select}
      (projection : ∀ column ∈ select.projection.selected,
        column.Scoped (select.source.reference :: Join.references select.joins ++ outer))
      (joins : ∀ before join after, select.joins = before ++ join :: after →
        Expr.Scoped (select.source.reference :: Join.references (before ++ [join]) ++ outer)
          join.condition)
      (condition : ∀ condition ∈ select.condition,
        Expr.Scoped (select.source.reference :: Join.references select.joins ++ outer) condition)
      (order : ∀ key ∈ select.order,
        key.column.Scoped (select.source.reference :: Join.references select.joins ++ outer)) :
      Select.Scoped outer select

end

theorem Expr.scoped_inherited {names : List String} : Expr.Inherited (Expr.Scoped names) :=
  ⟨.truth, fun each => .and each, fun inner => .group inner⟩

/-! ## Paths and their columns -/

/-- A path stands for a column: without a qualifier of its own, for a column of `owner`. -/
def ColumnRef.Denotes (owner path : String) (column : ColumnRef) : Prop :=
  if '.' ∈ path.toList then
    ∃ qualifier name, path = qualifier ++ "." ++ name ∧ column = ⟨some qualifier, name⟩
  else column = ⟨some owner, path⟩

/-- There is a condition for every constraint of every field. -/
def ConditionsMatch (entries : List FieldConstraints) (groups : List (List Expr)) : Prop :=
  List.Forall₂ (fun entry group => entry.constraints.length = group.length) entries groups

mutual

/-- Every path of the constraint became the column that it stands for. -/
inductive Constraint.Resolves (config : Config) :
    Names → String → String → Constraint → Expr → Prop where
  | compare {names owner field comparison value column}
      (denotes : ColumnRef.Denotes owner field column) :
      Constraint.Resolves config names owner field (.compare comparison value)
        (.compare (.column column) comparison (.literal value))
  | matching {names owner field affix text column}
      (denotes : ColumnRef.Denotes owner field column) :
      Constraint.Resolves config names owner field (.matching affix text)
        (.like (.column column) (affix.pattern text))
  | matchingAll {names owner field text columns}
      (denotes : List.Forall₂
        (fun part column => ColumnRef.Denotes owner (String.ofList part) column)
        (Text.splitAt config.hasDelimiter field.toList) columns) :
      Constraint.Resolves config names owner field (.matching .anywhere text)
        (.like (.concat columns) (Affix.anywhere.pattern text))
  | present {names owner field expected column}
      (denotes : ColumnRef.Denotes owner field column) :
      Constraint.Resolves config names owner field (.present expected)
        (.nullCheck (.column column) (!expected))
  | inList {names owner field negated values column}
      (denotes : ColumnRef.Denotes owner field column) :
      Constraint.Resolves config names owner field (.inList negated values)
        (.inListOrTruth (.column column) values negated)
  | inQuery {names owner field negated subquery column implied select}
      (denotes : ColumnRef.Denotes owner field column)
      (read : undeclaredAlias? (Subquery.select subquery)
        ((Subquery.joins subquery).map JoinSpec.aliasName) = .ok implied)
      (inner : Query.Resolves config names.all (Subquery.asQuery config subquery implied) select) :
      Constraint.Resolves config names owner field (.inQuery negated subquery)
        (.inSelect (.column column) select negated)

/--
Every path of the join became the column that it stands for: the path of its
column belongs to the query, the paths of its constraints to the joined table.
-/
inductive JoinSpec.Resolves (config : Config) :
    Names → List String → JoinSpec → Join → Prop where
  | via {names earlier join node via column key}
      (given : join.via = some via)
      (denotes : ColumnRef.Denotes names.primary via column)
      (condition : node.condition =
        .compare (.column column) .equal (.column ⟨some join.aliasName, key⟩)) :
      JoinSpec.Resolves config names earlier join node
  | on {names earlier join node groups}
      (given : join.via = none)
      (condition : node.condition = onCondition (groups.flatMap fieldParts))
      (sizes : ConditionsMatch join.entries groups)
      (constraints : ∀ entry group constraint expr,
        (entry, group) ∈ join.entries.zip groups →
        (constraint, expr) ∈ entry.constraints.zip group →
        Constraint.Resolves config (join.visible names earlier) join.aliasName entry.field
          constraint expr) :
      JoinSpec.Resolves config names earlier join node

/--
Every path of the query became the column that it stands for.  Its own table
has a name that nothing else in scope has, so no query around it can capture a
path without a qualifier.
-/
inductive Query.Resolves (config : Config) : List String → Query → Select → Prop where
  | query {enclosing query select groups}
      (distinct : select.source.reference ∉ query.joins.map JoinSpec.aliasName)
      (fresh : query.embedded → select.source.reference ∉ query.table :: enclosing)
      (projection : query.selection ≠ [] → List.Forall₂
        (fun selection column =>
          ColumnRef.Denotes select.source.reference (Selection.path selection) column)
        query.selection select.projection.selected)
      (order : List.Forall₂
        (fun sort key => ColumnRef.Denotes select.source.reference (SortKey.field sort)
          (OrderKey.column key))
        query.sort select.order)
      (joined : query.joins.length = select.joins.length)
      (joins : ∀ earlier join node,
        ((earlier, join), node) ∈ (JoinSpec.withEarlier [] query.joins).zip select.joins →
        JoinSpec.Resolves config (query.namesIn enclosing select) earlier join node)
      (condition : select.condition = whereClause (groups.flatMap fieldParts))
      (sizes : ConditionsMatch query.conditions.entries groups)
      (constraints : ∀ entry group constraint expr,
        (entry, group) ∈ query.conditions.entries.zip groups →
        (constraint, expr) ∈ entry.constraints.zip group →
        Constraint.Resolves config (query.namesIn enclosing select) select.source.reference
          entry.field constraint expr) :
      Query.Resolves config enclosing query select

end

/-! ## Resolution -/

theorem ColumnRef.denotes_of_parse
    {owner path : String} {parsed : ColumnPath} (read : ColumnPath.parse path = .ok parsed) :
    ColumnRef.Denotes owner path ⟨some (parsed.qualifier.getD owner), parsed.name⟩ := by
  have dotless := ColumnPath.qualifier_eq_none_iff read
  rcases ColumnPath.parse_eq_ok read with ⟨-, -, written⟩
  rcases parsed with ⟨_ | qualifier, name⟩
  · have dot : '.' ∉ path.toList := dotless.1 rfl
    obtain rfl : path = name := written
    simp [Denotes, dot]
  · obtain rfl : path = qualifier ++ "." ++ name := written
    rw [Denotes, if_pos (by simp)]
    exact ⟨qualifier, name, rfl, rfl⟩

namespace Names

variable {names : Names} {owner path : String} {column : ColumnRef}

theorem denotes_of_resolveIn (resolved : names.resolveIn owner path = .ok column) :
    column.Denotes owner path := by
  rcases resolveIn_eq_ok.1 resolved with ⟨parsed, read, -, rfl⟩
  exact ColumnRef.denotes_of_parse read

theorem scoped_of_resolveIn
    (resolved : names.resolveIn owner path = .ok column) (known : owner ∈ names.all) :
    column.Scoped names.all := by
  rcases resolveIn_eq_ok.1 resolved with ⟨parsed, -, qualified, rfl⟩
  rcases parsed with ⟨_ | qualifier, name⟩
  · exact ⟨owner, known, rfl⟩
  · exact ⟨qualifier, qualified qualifier rfl, rfl⟩

end Names

/-! ## The parts of a query -/

variable {config : Config} {names : Names} {owner field : String}

theorem patternSubject_scoped
    {affix : Affix} {subject : Expr}
    (resolved : patternSubject config names owner field affix = .ok subject)
    (known : owner ∈ names.all) : subject.Scoped names.all := by
  rcases patternSubject_eq_ok resolved with ⟨column, read, rfl⟩ | ⟨-, columns, parts, rfl⟩
  · exact .column (Names.scoped_of_resolveIn read known)
  · refine .concat fun column member => ?_
    rcases exists_of_forall₂ parts column member with ⟨part, -, read⟩
    exact Names.scoped_of_resolveIn read known

theorem patternSubject_resolves
    {affix : Affix} {subject : Expr} {text : String}
    (resolved : patternSubject config names owner field affix = .ok subject) :
    Constraint.Resolves config names owner field (.matching affix text)
      (.like subject (affix.pattern text)) := by
  rcases patternSubject_eq_ok resolved with ⟨column, read, rfl⟩ | ⟨rfl, columns, parts, rfl⟩
  · exact .matching (Names.denotes_of_resolveIn read)
  · exact .matchingAll (parts.imp fun part column read => Names.denotes_of_resolveIn read)

/-! ## Whole statements -/

/-- The property of constraints that the induction carries. -/
def Constraint.ScopedIn (config : Config) : ConstraintRelation :=
  fun _ names owner field constraint expr =>
    owner ∈ names.all →
      expr.Scoped names.all ∧ Constraint.Resolves config names owner field constraint expr

variable {depth : Nat} {entries : List FieldConstraints} {groups : List (List Expr)}

theorem ConditionsCompiled.inScope
    (compiled : ConditionsCompiled (Constraint.ScopedIn config) depth names owner entries groups)
    (known : owner ∈ names.all) :
    ∀ group ∈ groups, ∀ expr ∈ group, expr.Scoped names.all := by
  intro group present expr inside
  rcases compiled.mem group present expr inside with ⟨entry, -, constraint, -, visible⟩
  exact (visible known).1

theorem ConditionsCompiled.resolves
    (compiled : ConditionsCompiled (Constraint.ScopedIn config) depth names owner entries groups)
    (known : owner ∈ names.all) :
    ConditionsMatch entries groups ∧
      ∀ entry group constraint expr, (entry, group) ∈ entries.zip groups →
        (constraint, expr) ∈ entry.constraints.zip group →
        Constraint.Resolves config names owner entry.field constraint expr := by
  refine ⟨List.Forall₂.imp (fun _ _ pairs => pairs.length_eq) compiled, ?_⟩
  intro entry group constraint expr paired inside
  have fields := List.forall₂_zip compiled paired
  exact (List.forall₂_zip fields inside known).2

theorem JoinSpec.Compiled.inScope
    {earlier : List String} {join : JoinSpec} {node : Join}
    (compiled : join.Compiled config (Constraint.ScopedIn config) depth names earlier node) :
    node.condition.Scoped (join.visible names earlier).all := by
  have own : join.aliasName ∈ (join.visible names earlier).all := by
    simp [Names.all, visible]
  rcases compiled.condition with ⟨via, path, -, -, -, qualified, -, condition⟩ | constrained
  · rw [condition]
    refine .compare (.column ?_) (.column ⟨_, own, rfl⟩)
    refine ⟨_, ?_, rfl⟩
    cases written : path.qualifier with
    | none => simp [Names.all, visible]
    | some qualifier =>
        rcases qualified qualifier written with rfl | joined
        · simp [Names.all, visible]
        · simp [Names.all, visible, joined]
  · rcases constrained with ⟨groups, -, -, -, condition, inner⟩
    rw [condition]
    exact Expr.scoped_inherited.onCondition (inner.inScope own)

theorem JoinSpec.Compiled.resolves
    {earlier : List String} {join : JoinSpec} {node : Join}
    (compiled : join.Compiled config (Constraint.ScopedIn config) depth names earlier node) :
    JoinSpec.Resolves config names earlier join node := by
  rcases compiled.condition with ⟨via, path, given, -, read, -, -, condition⟩ | constrained
  · exact .via given (ColumnRef.denotes_of_parse read) condition
  · rcases constrained with ⟨groups, none, -, -, condition, inner⟩
    obtain ⟨sizes, constraints⟩ := inner.resolves (by simp [Names.all, visible])
    exact .on none condition sizes constraints

variable {enclosing : List String} {query : Query} {select : Select}

theorem Query.Compiled.inScope
    (compiled : query.Compiled config (Constraint.ScopedIn config) depth enclosing select) :
    select.Scoped enclosing := by
  have primary : select.source.reference ∈ (query.namesIn enclosing select).all :=
    List.mem_cons_self
  refine .select ?_ ?_ ?_ ?_
  · rw [← compiled.all_namesIn]
    intro column member
    rcases projection_of_frame compiled.projection with ⟨-, all⟩ | ⟨items, -, listed, each⟩
    · simp [all, Projection.selected] at member
    · rw [listed, Projection.selected, List.mem_map] at member
      rcases member with ⟨item, present, rfl⟩
      rcases exists_of_forall₂ each item present with ⟨selection, -, resolved⟩
      exact Names.scoped_of_resolveIn resolved.1 primary
  · intro front node back split
    rcases JoinSpec.compiled_at (split ▸ compiled.joins) with ⟨join, -, joined⟩
    have inScope := joined.inScope
    simpa [Names.all, JoinSpec.visible, Query.namesIn, Join.references, joined.table,
      TableRef.reference] using inScope
  · rw [← compiled.all_namesIn]
    rcases compiled.condition with ⟨groups, condition, inner⟩
    rw [condition]
    exact Expr.scoped_inherited.whereClause (inner.inScope primary)
  · rw [← compiled.all_namesIn]
    intro key member
    rcases exists_of_forall₂ (order_of_frame compiled.order) key member with ⟨_, -, resolved, -⟩
    exact Names.scoped_of_resolveIn resolved primary

theorem Query.Compiled.resolves
    (compiled : query.Compiled config (Constraint.ScopedIn config) depth enclosing select) :
    Query.Resolves config enclosing query select := by
  rcases compiled.condition with ⟨groups, condition, inner⟩
  rcases inner.resolves List.mem_cons_self with ⟨sizes, constraints⟩
  refine .query compiled.distinct ?_ ?_ ?_ ?_ ?_ condition sizes constraints
  · intro embedded clash
    apply compiled.fresh embedded
    rcases List.mem_cons.1 clash with table | outer
    · exact List.mem_cons.2 (.inl table)
    · exact List.mem_cons_of_mem _ (List.mem_append_right _ outer)
  · intro some
    rcases projection_of_frame compiled.projection with ⟨none, -⟩ | ⟨items, -, listed, each⟩
    · exact absurd none some
    · rw [listed, Projection.selected, List.forall₂_map_right_iff]
      exact each.imp fun selection item resolved => Names.denotes_of_resolveIn resolved.1
  · apply (order_of_frame compiled.order).imp
    rintro sort key ⟨resolved, -⟩
    exact Names.denotes_of_resolveIn resolved
  · have lengths := congrArg List.length (JoinSpec.references_eq compiled.joins)
    simpa [Join.references] using lengths.symm
  · intro earlier join node paired
    exact (List.forall₂_zip compiled.joins paired).resolves

theorem Constraint.scopedIn_cases (config : Config) :
    CompileCases config (Constraint.ScopedIn config) fun _ enclosing query select =>
      select.Scoped enclosing ∧ Query.Resolves config enclosing query select where
  compare resolved known :=
    ⟨.compare (.column (Names.scoped_of_resolveIn resolved known)) .literal,
      .compare (Names.denotes_of_resolveIn resolved)⟩
  matching resolved known :=
    ⟨.like (patternSubject_scoped resolved known), patternSubject_resolves resolved⟩
  present resolved known :=
    ⟨.nullCheck (.column (Names.scoped_of_resolveIn resolved known)),
      .present (Names.denotes_of_resolveIn resolved)⟩
  inList := by
    intro _ _ _ _ _ values _ resolved known
    refine ⟨?_, .inList (Names.denotes_of_resolveIn resolved)⟩
    unfold Expr.inListOrTruth
    split
    · exact .truth
    · exact .inList (.column (Names.scoped_of_resolveIn resolved known))
  inQuery resolved read inner known :=
    ⟨.inSelect (.column (Names.scoped_of_resolveIn resolved known)) inner.1,
      .inQuery (Names.denotes_of_resolveIn resolved) read inner.2⟩
  query compiled := ⟨compiled.inScope, compiled.resolves⟩

/--
Every column of a compiled statement is qualified by a name in scope at its
place, and is the one that its path stands for.
-/
theorem columns_in_scope
    {config : Config} {query : Query} {select : Select}
    (compiled : (query.statement config).1 = .ok select) :
    select.Scoped [] ∧ Query.Resolves config [] query select :=
  (Constraint.scopedIn_cases config).statement compiled

/-- The users of every team that an active user belongs to. -/
def teammates : Query :=
  { table := "users"
    joins := [⟨"teams", "team", some "team_id", none, none⟩]
    conditions := ⟨[⟨"team.id",
      [.inQuery false ⟨"users", "team.id", ⟨[⟨"active", [.present true]⟩]⟩, [], none, none⟩]⟩]⟩ }

/-- The SELECT of `teammates`: the inner query gets an alias, and a join for its column. -/
def teammatesSelect : Select :=
  ⟨.all, ⟨"users", none⟩,
    [⟨⟨"teams", some "team"⟩,
      .compare (.column ⟨some "users", "team_id"⟩) .equal (.column ⟨some "team", "id"⟩)⟩],
    some (.inSelect (.column ⟨some "team", "id"⟩)
      ⟨.columns [⟨⟨some "team", "id"⟩, none⟩], ⟨"users", some "sq1_0"⟩,
        [⟨⟨"team", some "team"⟩,
          .compare (.column ⟨some "sq1_0", "team"⟩) .equal (.column ⟨some "team", "id"⟩)⟩],
        some (.nullCheck (.column ⟨some "sq1_0", "active"⟩) false), [], ⟨none, none⟩⟩
      false),
    [], ⟨none, none⟩⟩

theorem columns_in_scope_teammates :
    (teammates.statement {}).1 = .ok teammatesSelect ∧ teammatesSelect.Scoped [] ∧
      Query.Resolves {} [] teammates teammatesSelect :=
  ⟨by cbv, columns_in_scope (by cbv)⟩

end SqlScribe
