import SqlScribe.Proofs.Compile.Failure
import SqlScribe.Proofs.Compile.Success
import SqlScribe.Proofs.Scope

/-!
# The queries that are accepted

`Query.Accepted` says which queries have a statement: a judgement over the
query and the queries inside it, with the names in scope as index.  It knows
nothing of generated aliases or of the order in which the compiler looks at
things.

A compilation meets generated aliases among its names, the judgement does not.
As long as nobody writes a qualifier that looks like one, this makes no
difference, and the compiler accepts exactly the judged queries.
-/

namespace SqlScribe

open Compile

/-! ## The judgement -/

/-- The name by which a query's columns refer to its own table, if it keeps that name. -/
def Query.ownNames (query : Query) : List String := if query.embedded then [] else [query.table]

/-- The names that can be written in a query. -/
def Query.scope (query : Query) (enclosing : List String) : List String :=
  query.ownNames ++ query.joins.map JoinSpec.aliasName ++ enclosing

mutual

/-- The paths of the constraint are in scope, and a query inside it is accepted. -/
inductive Constraint.Accepted (config : Config) :
    (depth : Nat) → (scope : List String) → (field : String) → (constraint : Constraint) →
      Prop where
  | constraint {depth scope field constraint}
      (paths : ∀ path ∈ Constraint.paths config field constraint, PathInScope scope path)
      (inner : ∀ negated subquery, constraint = .inQuery negated subquery →
        Query.Accepted config (depth + 1) scope (Subquery.completed config subquery)) :
      Constraint.Accepted config depth scope field constraint

/--
The join is either over a column or over constraints.  A column is looked up
among the names of the query itself, without those around it.
-/
inductive JoinSpec.Accepted (config : Config) :
    (depth : Nat) → (own enclosing earlier : List String) → (join : JoinSpec) → Prop where
  | via {depth own enclosing earlier join via}
      (table : IsIdentifier join.table)
      (given : join.via = some via)
      (bare : join.entries = [])
      (key : IsIdentifier (join.targetKey.getD config.identifierKey))
      (path : PathInScope (own ++ earlier) via) :
      JoinSpec.Accepted config depth own enclosing earlier join
  | on {depth own enclosing earlier join}
      (table : IsIdentifier join.table)
      (free : join.via = none)
      (constrained : join.entries ≠ [])
      (keyless : join.targetKey = none)
      (constraints : ∀ entry ∈ join.entries, ∀ constraint ∈ entry.constraints,
        Constraint.Accepted config depth (own ++ (earlier ++ [join.aliasName]) ++ enclosing)
          entry.field constraint) :
      JoinSpec.Accepted config depth own enclosing earlier join

/-- The query has a statement at this depth, with these names in scope around it. -/
inductive Query.Accepted (config : Config) :
    (depth : Nat) → (enclosing : List String) → (query : Query) → Prop where
  | query {depth enclosing query}
      (shallow : depth ≤ config.maxSubqueryDepth)
      (table : IsIdentifier query.table)
      (aliases : ∀ aliasName ∈ query.joins.map JoinSpec.aliasName, IsIdentifier aliasName)
      (distinct : (query.joins.map JoinSpec.aliasName).Nodup)
      (other : query.embedded = false → query.table ∉ query.joins.map JoinSpec.aliasName)
      (joins : ∀ entry ∈ JoinSpec.withEarlier [] query.joins,
        JoinSpec.Accepted config depth query.ownNames enclosing entry.1 entry.2)
      (selection : ∀ item ∈ query.selection,
        PathInScope (query.scope enclosing) (Selection.path item))
      (outputs : query.embedded = false →
        (∀ item ∈ query.selection, IsIdentifier (Selection.output item)) ∧
          (query.selection.map Selection.output).Nodup)
      (conditions : ∀ entry ∈ query.conditions.entries, ∀ constraint ∈ entry.constraints,
        Constraint.Accepted config depth (query.scope enclosing) entry.field constraint)
      (sort : ∀ key ∈ query.sort, PathInScope (query.scope enclosing) (SortKey.field key)) :
      Query.Accepted config depth enclosing query

end

/-! ## Acceptance and compilation -/

variable {config : Config} {depth : Nat} {names : Names} {owner field : String}
variable {before : CompileState} {enclosing scope : List String}

/-- Wherever the constraint is compiled, it is accepted if and only if the judgement says so. -/
def Constraint.Judged (config : Config) (constraint : Constraint) : Prop :=
  ∀ {depth : Nat} {names : Names} {owner field : String} {scope : List String}
    {before : CompileState},
    SameWritten names.all scope →
    constraint.Qualifiers config (¬ IsGeneratedAlias ·) field →
    (Succeeds (constraintExpr config depth names owner field constraint) before ↔
      constraint.Accepted config depth scope field)

variable (names owner before) in
theorem exists_conditions_iff {entries : List FieldConstraints}
    (judged : ∀ entry ∈ entries, ∀ constraint ∈ entry.constraints, constraint.Judged config)
    (same : SameWritten names.all scope)
    (qualifiers : ∀ entry ∈ entries, ∀ constraint ∈ entry.constraints,
      constraint.Qualifiers config (¬ IsGeneratedAlias ·) entry.field) :
    (∃ groups after, ConditionSteps config depth names owner entries before groups after) ↔
      ∀ entry ∈ entries, ∀ constraint ∈ entry.constraints,
        constraint.Accepted config depth scope entry.field :=
  exists_steps_iff fun entry present _ => exists_steps_iff fun constraint member _ =>
    judged entry present constraint member same (qualifiers entry present constraint member)

/-- The names of the compiler and those of the judgement differ in generated aliases only. -/
theorem QueryFrame.sameWritten_of_source {query : Query} {source : TableRef}
    {after : CompileState}
    (sourced : Yields (query.frame.source config depth) before source after) :
    SameWritten [source.reference] query.ownNames := by
  have source := (yields_source.1 sourced).2.2.2
  unfold Query.ownNames
  cases embedded : query.embedded with
  | false =>
      rw [if_neg (by simp [Query.frame, embedded])] at source
      rcases source with ⟨rfl, -⟩
      exact .refl _
  | true =>
      rw [if_pos (by simp [Query.frame, embedded])] at source
      rcases source with ⟨rfl, -⟩
      intro name written
      suffices name ≠ generatedAlias depth _ by simpa [TableRef.reference, AliasScope.allocate]
      rintro rfl
      exact written (isGeneratedAlias_generatedAlias _ _)

theorem JoinSpec.succeeds_iff {earlier own : List String} {join : JoinSpec}
    (judged : ∀ entry ∈ join.entries, ∀ constraint ∈ entry.constraints, constraint.Judged config)
    (table : SameWritten [names.primary] own) (outer : SameWritten names.enclosing enclosing)
    (via : ∀ path, join.via = some path → ∀ qualifier, QualifiedBy path qualifier →
      ¬ IsGeneratedAlias qualifier)
    (qualifiers : ∀ entry ∈ join.entries, ∀ constraint ∈ entry.constraints,
      constraint.Qualifiers config (¬ IsGeneratedAlias ·) entry.field) :
    Succeeds (joinNode config depth names earlier join) before ↔
      join.Accepted config depth own enclosing earlier := by
  have inner : SameWritten (join.visible names earlier).all
      (own ++ (earlier ++ [join.aliasName]) ++ enclosing) :=
    (table.append (.refl (earlier ++ [join.aliasName]))).append outer
  have joined : SameWritten (names.primary :: earlier) (own ++ earlier) :=
    table.append (.refl earlier)
  simp only [Succeeds, yields_joinNode]
  constructor
  · rintro ⟨node, after, identifier, ⟨path, given, none, node, -⟩ | constrained⟩
    · rcases exists_joinVia_iff.1 ⟨_, node⟩ with ⟨known, key⟩
      exact .via identifier given none key ((joined.pathInScope_iff (via path given)).1 known)
    · rcases constrained with ⟨groups, none, some, keyless, -, steps⟩
      exact .on identifier none some keyless
        ((exists_conditions_iff _ _ _ judged inner qualifiers).1 ⟨groups, after, steps⟩)
  · intro accepted
    cases accepted with
    | via identifier given none key path =>
        have known := (joined.pathInScope_iff (via _ given)).2 path
        rcases exists_joinVia_iff.2 ⟨known, key⟩ with ⟨node, read⟩
        exact ⟨node, before, identifier, .inl ⟨_, given, none, read, rfl⟩⟩
    | on identifier none some keyless constraints =>
        rcases (exists_conditions_iff _ _ before judged inner qualifiers).2 constraints with
          ⟨groups, after, steps⟩
        exact ⟨_, after, identifier, .inr ⟨groups, none, some, keyless, rfl, steps⟩⟩

variable (names before) in
theorem Query.exists_joins_iff {query : Query}
    (judged : ∀ constraint ∈ query.constraints, constraint.Judged config)
    (table : SameWritten [names.primary] query.ownNames)
    (outer : SameWritten names.enclosing enclosing)
    (qualifiers : query.Qualifiers config (¬ IsGeneratedAlias ·)) :
    (∃ nodes after,
        JoinSteps config depth names (JoinSpec.withEarlier [] query.joins) before nodes after) ↔
      ∀ entry ∈ JoinSpec.withEarlier [] query.joins,
        entry.2.Accepted config depth query.ownNames enclosing entry.1 := by
  apply exists_steps_iff
  intro entry member start
  have joined := (JoinSpec.mem_withEarlier member).1
  apply JoinSpec.succeeds_iff _ table outer
  · exact fun path given qualifier => qualifiers.via joined given
  · exact fun field present constraint => qualifiers.joinCondition joined present
  · exact fun field present constraint inside =>
      judged constraint (mem_constraints_of_join joined present inside)

theorem Query.succeeds_iff {query : Query} {around : List String}
    (judged : ∀ constraint ∈ query.constraints, constraint.Judged config)
    (outer : SameWritten around enclosing)
    (qualifiers : query.Qualifiers config (¬ IsGeneratedAlias ·)) :
    Succeeds (query.compileAt config depth around) before ↔
      query.Accepted config depth enclosing := by
  have conditions : ∀ entry ∈ query.conditions.entries, ∀ constraint ∈ entry.constraints,
      constraint.Judged config := fun entry present constraint member =>
    judged constraint (mem_constraints_of_condition present member)
  have visible {reference : String} (table : SameWritten [reference] query.ownNames) :
      SameWritten (Names.all ⟨reference, query.joins.map JoinSpec.aliasName, around⟩)
        (query.scope enclosing) :=
    (table.append (.refl _)).append outer
  constructor
  · rintro ⟨select, after, yields⟩
    rcases yields_compileAt.1 yields with ⟨named, joined, filtered, groups, sourced, joining,
      projected, filtering, -, ordered, -, -⟩
    have table := QueryFrame.sameWritten_of_source sourced
    have same := visible table
    rcases exists_source_iff.1 ⟨_, _, sourced⟩ with ⟨shallow, identifier, aliases, distinct, other⟩
    rcases exists_projection_iff.1 ⟨_, projected⟩ with ⟨selection, outputs⟩
    have sort := exists_order_iff.1 ⟨_, ordered⟩
    refine .query shallow identifier aliases distinct other ?_ ?_ ?_ ?_ ?_
    · exact (exists_joins_iff _ _ judged table outer qualifiers).1 ⟨_, _, joining⟩
    · intro item member
      exact (same.pathInScope_iff fun _ => qualifiers.selection member).1 (selection item member)
    · intro standing
      exact ⟨fun item member => ((outputs standing).1 item member).1, (outputs standing).2⟩
    · exact (exists_conditions_iff _ _ _ conditions same fun entry present constraint =>
        qualifiers.condition present).1 ⟨_, _, filtering⟩
    · intro key member
      exact (same.pathInScope_iff fun _ => qualifiers.sort member).1 (sort key member)
  · rintro ⟨shallow, identifier, aliases, distinct, other, joins, selection, outputs, constraints,
      sort⟩
    have introduced : Succeeds (query.frame.source config depth) before :=
      exists_source_iff.2 ⟨shallow, identifier, aliases, distinct, other⟩
    rcases introduced with ⟨source, named, sourced⟩
    have table := QueryFrame.sameWritten_of_source sourced
    have same := visible table
    -- Each part is compiled from the state in which the part before it ended.
    let names : Names := ⟨source.reference, query.joins.map JoinSpec.aliasName, around⟩
    rcases (exists_joins_iff names named judged table outer qualifiers).2 joins with
      ⟨nodes, joined, joining⟩
    have selectable : ∃ projection, query.frame.projection names = .ok projection := by
      refine exists_projection_iff.2 ⟨fun item member => ?_, fun standing => ?_⟩
      · exact (same.pathInScope_iff fun _ => qualifiers.selection member).2 (selection item member)
      · rcases outputs standing with ⟨each, distinct⟩
        exact ⟨fun item member => ⟨each item member, List.not_mem_nil⟩, distinct⟩
    have sortable : ∃ order, query.frame.order names = .ok order := by
      refine exists_order_iff.2 fun key member => ?_
      exact (same.pathInScope_iff fun _ => qualifiers.sort member).2 (sort key member)
    have filterable := (exists_conditions_iff names source.reference joined conditions same
      fun entry present constraint => qualifiers.condition present).2 constraints
    rcases filterable with ⟨groups, filtered, filtering⟩
    rcases selectable with ⟨projection, projected⟩
    rcases sortable with ⟨order, ordered⟩
    exact ⟨⟨projection, source, nodes, whereClause (groups.flatMap fieldParts), order,
        ⟨query.skip, query.limit⟩⟩, _,
      yields_compileAt.2 ⟨named, joined, filtered, groups, sourced, joining, projected, filtering,
        rfl, ordered, rfl, rfl⟩⟩

/-- A constraint is accepted by the compiler if and only if the judgement accepts it. -/
theorem Constraint.judged (constraint : Constraint) : constraint.Judged config := by
  -- The paths are judged alike, whether or not there is a query in the constraint.
  have paths {names : Names} (owner : String) {field : String} {scope : List String}
      {constraint : Constraint} (same : SameWritten names.all scope)
      (qualifiers : constraint.Qualifiers config (¬ IsGeneratedAlias ·) field) :
      (∃ subject, patternSubject config names owner field constraint.affix = .ok subject) ↔
        ∀ path ∈ constraint.paths config field, PathInScope scope path :=
    exists_patternSubject_iff.trans (forall₂_congr fun path written =>
      same.pathInScope_iff (qualifiers.own path written))
  induction constraint using Constraint.query_induction config with
  | plain constraint plain =>
      intro depth names owner field scope before same qualifiers
      have paths := paths owner same qualifiers
      simp only [Succeeds, yields_of_plain plain]
      constructor
      · rintro ⟨_, _, subject, read, -, -⟩
        exact .constraint (paths.1 ⟨subject, read⟩) fun negated query inside =>
          absurd inside (plain negated query)
      · rintro ⟨written, -⟩
        rcases paths.2 written with ⟨subject, read⟩
        exact ⟨_, before, subject, read, rfl, rfl⟩
  | inQuery negated subquery inside =>
      intro depth names owner field scope before same qualifiers
      have paths := paths owner same qualifiers
      have inner : Succeeds ((subquery.completed config).compileAt config (depth + 1) names.all)
            before ↔ (subquery.completed config).Accepted config (depth + 1) scope :=
        Query.succeeds_iff inside same (qualifiers.inner negated subquery rfl)
      simp only [affix, patternSubject, reduceCtorEq, false_and, if_false,
        Checked.map_eq_ok] at paths
      simp only [Succeeds, yields_inQuery]
      constructor
      · rintro ⟨_, after, column, select, resolved, compiled, -⟩
        refine .constraint (paths.1 ⟨_, column, resolved, rfl⟩) ?_
        rintro _ _ ⟨⟩
        exact inner.1 ⟨select, after, compiled⟩
      · rintro ⟨written, accepted⟩
        rcases paths.2 written with ⟨_, column, resolved, -⟩
        rcases inner.2 (accepted negated subquery rfl) with ⟨select, after, compiled⟩
        exact ⟨_, after, column, select, resolved, compiled, rfl⟩

/-- The same for queries, at any depth and with any names around them. -/
theorem Query.compileAt_succeeds_iff {query : Query} {around : List String}
    (outer : SameWritten around enclosing)
    (qualifiers : query.Qualifiers config (¬ IsGeneratedAlias ·)) :
    Succeeds (query.compileAt config depth around) before ↔
      query.Accepted config depth enclosing :=
  query.succeeds_iff (fun constraint _ => constraint.judged) outer qualifiers

/-! ## Statements -/

theorem Query.statement_succeeds_iff {query : Query}
    (qualifiers : query.Qualifiers config (¬ IsGeneratedAlias ·)) :
    (∃ select, (query.statement config).1 = .ok select) ↔ query.Accepted config 0 [] := by
  rw [← Query.compileAt_succeeds_iff (.refl []) qualifiers]
  exact exists_congr fun select => Query.statement_eq_ok

/--
A query has a statement if and only if the judgement accepts it, and its
nesting is complained about only if a query inside it stands too deep.
-/
theorem statement_accepted_iff
    {config : Config} {query : Query}
    (qualifiers : query.Qualifiers config (¬ IsGeneratedAlias ·)) :
    ((∃ select, (query.statement config).1 = .ok select) ↔ query.Accepted config 0 []) ∧
      ∀ limit, (query.statement config).1 = .error (.subqueryTooDeep limit) →
        limit = config.maxSubqueryDepth ∧
          ∃ level inner, query.Nests config level inner ∧ config.maxSubqueryDepth < level := by
  refine ⟨Query.statement_succeeds_iff qualifiers, fun limit refused => ?_⟩
  have fails : Fails (query.compileAt config 0 []) ⟨.empty, []⟩ (.subqueryTooDeep limit) := refused
  rcases Query.exceeds_of_tooDeep fails with ⟨same, level, inner, nests, deep⟩
  exact ⟨same, level, inner, nests, by omega⟩

theorem teammates_qualifiers (bound : Nat) :
    teammates.Qualifiers { maxSubqueryDepth := bound } (¬ IsGeneratedAlias ·) := by
  have own : ∀ path ∈ ["team_id", "team.id"], path.toList.take 2 ≠ ['s', 'q'] := by decide
  have inner : ∀ path ∈ ["team.id", "team", "active"], path.toList.take 2 ≠ ['s', 'q'] := by decide
  refine .of_paths own fun negated subquery member => ?_
  obtain ⟨rfl, rfl⟩ : false = negated ∧ _ = subquery := by
    simpa [teammates, Query.constraints, JoinSpec.constraints, JoinSpec.entries, eq_comm]
      using member
  refine .of_paths inner fun negated subquery member => ?_
  simp [Subquery.constraints] at member

theorem statement_accepted_iff_teammates :
    (∀ bound, teammates.Qualifiers { maxSubqueryDepth := bound } (¬ IsGeneratedAlias ·)) ∧
      teammates.Accepted { maxSubqueryDepth := 1 } 0 [] ∧
      ∃ level inner, teammates.Nests { maxSubqueryDepth := 0 } level inner ∧ 0 < level :=
  ⟨teammates_qualifiers,
    (statement_accepted_iff (teammates_qualifiers 1)).1.1 ⟨teammatesSelect, by cbv⟩,
    ((statement_accepted_iff (teammates_qualifiers 0)).2 0 (by cbv)).2⟩

end SqlScribe
