import SqlScribe.Proofs.AliasScope
import SqlScribe.Proofs.Compile.Spec

/-!
# Induction over compiled queries

`CompileCases` lists the cases of an induction over the constraints and queries
that were compiled, without the states that the compiler passes through.
`CompileCases.statement` is the induction itself.

The one thing that it takes from those states is that generated aliases are
fresh: every name in scope is taken, so the alias of an embedded query is not
among them.

What does depend on the states, such as the aliases and reports of a compilation,
often adds up part by part.  `CompileState.AddsUp.of_query` follows it through
the joins and the condition of a query.
-/

namespace SqlScribe

open Compile
open Checked

/-! ## The constraints inside a query -/

def JoinSpec.constraints (join : JoinSpec) : List Constraint :=
  join.entries.flatMap FieldConstraints.constraints

/-- The constraints of a query and of its joins, without those inside embedded queries. -/
def Query.constraints (query : Query) : List Constraint :=
  query.conditions.entries.flatMap FieldConstraints.constraints ++
    query.joins.flatMap JoinSpec.constraints

theorem Query.mem_constraints_of_condition
    {query : Query} {entry : FieldConstraints} {constraint : Constraint}
    (present : entry ∈ query.conditions.entries) (inside : constraint ∈ entry.constraints) :
    constraint ∈ query.constraints :=
  List.mem_append_left _ (List.mem_flatMap.2 ⟨entry, present, inside⟩)

theorem Query.mem_constraints_of_join
    {query : Query} {join : JoinSpec} {entry : FieldConstraints} {constraint : Constraint}
    (joined : join ∈ query.joins) (present : entry ∈ join.entries)
    (inside : constraint ∈ entry.constraints) : constraint ∈ query.constraints :=
  List.mem_append_right _ (List.mem_flatMap.2
    ⟨join, joined, List.mem_flatMap.2 ⟨entry, present, inside⟩⟩)

/-- The constraints of an embedded query and of its joins. -/
def Subquery.constraints (subquery : Subquery) : List Constraint :=
  subquery.conditions.entries.flatMap FieldConstraints.constraints ++
    subquery.joins.flatMap JoinSpec.constraints

/-- The constraints directly inside a constraint. -/
def Constraint.nested : Constraint → List Constraint
  | .inQuery _ query => query.constraints
  | _ => []

theorem Subquery.constraints_asQuery
    (config : Config) (subquery : Subquery) (implied : Option String) :
    (subquery.asQuery config implied).constraints = subquery.constraints := by
  cases implied <;>
    simp [asQuery, Query.constraints, constraints, JoinSpec.implied, JoinSpec.constraints,
      JoinSpec.entries]

theorem FieldConstraints.sizeOf_lt {entries : List FieldConstraints} {constraint : Constraint}
    (member : constraint ∈ entries.flatMap FieldConstraints.constraints) :
    sizeOf constraint < sizeOf entries := by
  rcases List.mem_flatMap.1 member with ⟨⟨field, constraints⟩, entry, inside⟩
  have outer := List.sizeOf_lt_of_mem entry
  have inner := List.sizeOf_lt_of_mem inside
  simp only [mk.sizeOf_spec] at outer inner
  omega

theorem JoinSpec.sizeOf_lt {join : JoinSpec} {constraint : Constraint}
    (member : constraint ∈ join.constraints) : sizeOf constraint < sizeOf join := by
  rcases join with ⟨table, aliasName, via, _ | ⟨⟨fields⟩⟩, targetKey⟩
  · cases member
  · have inside := FieldConstraints.sizeOf_lt member
    simp only [entries, Option.map_some, Option.getD_some] at inside
    simp only [mk.sizeOf_spec, Option.some.sizeOf_spec, ConstraintMap.mk.sizeOf_spec]
    omega

theorem Constraint.sizeOf_lt {constraint inner : Constraint} (member : inner ∈ constraint.nested) :
    sizeOf inner < sizeOf constraint := by
  cases constraint with
  | inQuery negated query =>
      rcases query with ⟨table, select, ⟨entries⟩, joins, skip, limit⟩
      rcases List.mem_append.1 member with own | joined
      · have inside := FieldConstraints.sizeOf_lt own
        simp only [inQuery.sizeOf_spec, Subquery.mk.sizeOf_spec, ConstraintMap.mk.sizeOf_spec]
        simp only at inside
        omega
      · rcases List.mem_flatMap.1 joined with ⟨join, present, inside⟩
        have outer := List.sizeOf_lt_of_mem present
        have smaller := JoinSpec.sizeOf_lt inside
        simp only [inQuery.sizeOf_spec, Subquery.mk.sizeOf_spec]
        simp only at outer
        omega
  | _ => cases member

/-- A property holds of every constraint if it passes from the constraints inside it to itself. -/
theorem Constraint.nested_induction
    {motive : Constraint → Prop}
    (step : ∀ constraint, (∀ inner ∈ constraint.nested, motive inner) → motive constraint)
    (constraint : Constraint) : motive constraint :=
  step constraint fun inner _ => nested_induction step inner
termination_by sizeOf constraint
decreasing_by exact Constraint.sizeOf_lt ‹_›

/-! ## Compiled queries -/

/-- A relation between a constraint on a field and the condition that it becomes. -/
abbrev ConstraintRelation := Nat → Names → String → String → Constraint → Expr → Prop

section Compiled

variable (config : Config) (related : ConstraintRelation) (depth : Nat)

/-- The constraints on some fields became these parts, field by field. -/
def ConditionsCompiled
    (names : Names) (owner : String) (entries : List FieldConstraints)
    (groups : List (List Expr)) : Prop :=
  List.Forall₂
    (fun entry group =>
      List.Forall₂ (related depth names owner entry.field) entry.constraints group)
    entries groups

theorem ConditionsCompiled.mem
    {related : ConstraintRelation} {depth : Nat}
    {names : Names} {owner : String} {entries : List FieldConstraints} {groups : List (List Expr)}
    (compiled : ConditionsCompiled related depth names owner entries groups) :
    ∀ group ∈ groups, ∀ expr ∈ group, ∃ entry ∈ entries, ∃ constraint ∈ entry.constraints,
      related depth names owner entry.field constraint expr := by
  intro group present expr inside
  rcases exists_of_forall₂ compiled group present with ⟨entry, written, pairs⟩
  rcases exists_of_forall₂ pairs expr inside with ⟨constraint, member, relation⟩
  exact ⟨entry, written, constraint, member, relation⟩

/-- A join with the aliases before it became this node. -/
structure JoinSpec.Compiled
    (names : Names) (earlier : List String) (join : JoinSpec) (node : Join) : Prop where
  identifier : IsIdentifier join.table
  table : node.table = ⟨join.table, some join.aliasName⟩
  /-- The condition is over a column, or it is the group of the join's own constraints. -/
  condition :
    (∃ via path, join.via = some via ∧ join.entries = [] ∧ ColumnPath.parse via = .ok path ∧
        (∀ qualifier ∈ path.qualifier, qualifier = names.primary ∨ qualifier ∈ earlier) ∧
        IsIdentifier (join.targetKey.getD config.identifierKey) ∧
        node.condition =
          .compare (.column ⟨some (path.qualifier.getD names.primary), path.name⟩) .equal
            (.column ⟨some join.aliasName, join.targetKey.getD config.identifierKey⟩)) ∨
      (∃ groups, join.via = none ∧ join.entries ≠ [] ∧ join.targetKey = none ∧
        node.condition = onCondition (groups.flatMap fieldParts) ∧
        ConditionsCompiled related depth (join.visible names earlier) join.aliasName
          join.entries groups)

/-- A query with names in scope around it became this SELECT. -/
structure Query.Compiled (enclosing : List String) (query : Query) (select : Select) : Prop where
  shallow : depth ≤ config.maxSubqueryDepth
  table : IsIdentifier query.table
  aliases :
    checkAliases (if query.embedded then [] else [query.table])
      (query.joins.map JoinSpec.aliasName) = .ok ()
  source :
    if query.embedded then
      ∃ number, select.source = ⟨query.table, some (generatedAlias depth number)⟩
    else select.source = ⟨query.table, none⟩
  /-- The alias of an embedded query is a name that nothing else around it has. -/
  fresh :
    query.embedded →
      select.source.reference ∉ query.table :: query.joins.map JoinSpec.aliasName ++ enclosing
  joins :
    List.Forall₂
      (fun entry => JoinSpec.Compiled config related depth (query.namesIn enclosing select)
        entry.1 entry.2)
      (JoinSpec.withEarlier [] query.joins) select.joins
  projection : query.frame.projection (query.namesIn enclosing select) = .ok select.projection
  condition :
    ∃ groups, select.condition = whereClause (groups.flatMap fieldParts) ∧
      ConditionsCompiled related depth (query.namesIn enclosing select) select.source.reference
        query.conditions.entries groups
  order : query.frame.order (query.namesIn enclosing select) = .ok select.order
  limit : select.limit = ⟨query.skip, query.limit⟩

end Compiled

section Joins

variable {config : Config} {related : ConstraintRelation} {depth : Nat}
variable {enclosing earlier : List String} {joins : List JoinSpec} {nodes : List Join}

/-- The names of joined tables. -/
def Join.references (nodes : List Join) : List String := nodes.map fun node => node.table.reference

/-- The joined tables have the names that their joins declare. -/
theorem JoinSpec.references_eq
    {names : Names}
    (compiled : List.Forall₂
      (fun entry => JoinSpec.Compiled config related depth names entry.1 entry.2)
      (withEarlier earlier joins) nodes) :
    Join.references nodes = joins.map aliasName := by
  induction joins generalizing earlier nodes with
  | nil =>
      cases compiled
      rfl
  | cons join rest step =>
      cases compiled with
      | cons first others =>
          simp only [Join.references, List.map_cons, first.table, List.cons.injEq]
          exact ⟨rfl, step others⟩

/-- A join sees the aliases of the joins before it. -/
theorem JoinSpec.compiled_at
    {names : Names} {front back : List Join} {node : Join}
    (compiled : List.Forall₂
      (fun entry => JoinSpec.Compiled config related depth names entry.1 entry.2)
      (withEarlier earlier joins) (front ++ node :: back)) :
    ∃ join ∈ joins, join.Compiled config related depth names
      (earlier ++ Join.references front) node := by
  induction joins generalizing earlier front with
  | nil =>
      cases front <;> cases compiled
  | cons join rest step =>
      cases front with
      | nil =>
          cases compiled with
          | cons first others => exact ⟨join, List.mem_cons_self, by simpa [Join.references] using first⟩
      | cons other front =>
          cases compiled with
          | cons first others =>
              rcases step others with ⟨found, member, present⟩
              refine ⟨found, List.mem_cons_of_mem _ member, ?_⟩
              have named : other.table.reference = join.aliasName := by
                rw [first.table]
                rfl
              simpa [Join.references, named] using present

/-- Each join became the node at its place, with some aliases before it. -/
theorem JoinSpec.compiled_pairs
    {names : Names}
    (compiled : List.Forall₂
      (fun entry => JoinSpec.Compiled config related depth names entry.1 entry.2)
      (withEarlier earlier joins) nodes) :
    List.Forall₂
      (fun join node => ∃ before, JoinSpec.Compiled config related depth names before join node)
      joins nodes := by
  induction joins generalizing earlier nodes with
  | nil =>
      cases compiled
      exact .nil
  | cons join rest step =>
      cases compiled with
      | cons first others => exact .cons ⟨_, first⟩ (step others)

variable {query : Query} {select : Select}

/-- The names in scope in a query are the ones that its SELECT shows. -/
theorem Query.Compiled.all_namesIn
    (compiled : query.Compiled config related depth enclosing select) :
    (query.namesIn enclosing select).all =
      select.source.reference :: Join.references select.joins ++ enclosing := by
  rw [JoinSpec.references_eq compiled.joins]
  rfl

/-- No join has the name of the query's own table. -/
theorem Query.Compiled.distinct
    (compiled : query.Compiled config related depth enclosing select) :
    select.source.reference ∉ query.joins.map JoinSpec.aliasName := by
  cases embedded : query.embedded with
  | true =>
      intro clash
      refine compiled.fresh embedded (List.mem_cons_of_mem _ ?_)
      exact List.mem_append_left _ clash
  | false =>
      have source := compiled.source
      have aliases := compiled.aliases
      simp only [embedded, Bool.false_eq_true, if_false] at source aliases
      rw [source]
      intro clash
      have unused := ((checkAliases_eq_ok.1 aliases).1 _ clash).2
      simp [TableRef.reference] at unused

end Joins

/-- The cases of an induction over compiled constraints and compiled queries. -/
structure CompileCases
    (config : Config)
    (related : ConstraintRelation)
    (selected : Nat → List String → Query → Select → Prop) : Prop where
  compare : ∀ {depth names owner field comparison value column},
    names.resolveIn owner field = .ok column →
      related depth names owner field (.compare comparison value)
        (.compare (.column column) comparison (.literal value))
  matching : ∀ {depth names owner field affix text subject},
    patternSubject config names owner field affix = .ok subject →
      related depth names owner field (.matching affix text) (.like subject (affix.pattern text))
  present : ∀ {depth names owner field expected column},
    names.resolveIn owner field = .ok column →
      related depth names owner field (.present expected) (.nullCheck (.column column) (!expected))
  inList : ∀ {depth names owner field negated values column},
    names.resolveIn owner field = .ok column →
      related depth names owner field (.inList negated values)
        (.inListOrTruth (.column column) values negated)
  inQuery : ∀ {depth names owner field negated subquery column implied select},
    names.resolveIn owner field = .ok column →
      undeclaredAlias? subquery.select (subquery.joins.map JoinSpec.aliasName) = .ok implied →
      selected (depth + 1) names.all (subquery.asQuery config implied) select →
      related depth names owner field (.inQuery negated subquery)
        (.inSelect (.column column) select negated)
  query : ∀ {depth enclosing query select},
    Query.Compiled config related depth enclosing query select →
      selected depth enclosing query select

/-! ## The induction -/

/-- The names that are taken in one state are taken in another one. -/
def CompileState.Within (before after : CompileState) : Prop :=
  before.scope.taken ⊆ after.scope.taken

theorem CompileState.Within.refl (state : CompileState) : state.Within state :=
  List.Subset.refl state.scope.taken

theorem CompileState.Within.trans
    {first second third : CompileState} (own : first.Within second) (other : second.Within third) :
    first.Within third :=
  List.Subset.trans own other

/-- A report takes no names. -/
theorem Query.within_reported (query : Query) (state : CompileState) :
    state.Within (query.reported state) := by
  unfold Query.reported
  split
  · exact .refl state
  · exact .refl state

variable {config : Config} {related : ConstraintRelation} {depth : Nat} {names : Names}
variable {before after : CompileState}

/-- The constraint is related to its condition wherever it is compiled, and names stay taken. -/
def Constraint.Traced
    (config : Config) (related : ConstraintRelation) (constraint : Constraint) : Prop :=
  ∀ {depth : Nat} {names : Names} {owner field : String} {before : CompileState} {expr : Expr}
    {after : CompileState},
    names.all ⊆ before.scope.taken →
    Yields (constraintExpr config depth names owner field constraint) before expr after →
    related depth names owner field constraint expr ∧ before.Within after

theorem conditionsCompiled_of_steps
    {owner : String} {entries : List FieldConstraints} {groups : List (List Expr)}
    (traced : ∀ constraint ∈ entries.flatMap FieldConstraints.constraints,
      constraint.Traced config related)
    (taken : names.all ⊆ before.scope.taken)
    (steps : ConditionSteps config depth names owner entries before groups after) :
    ConditionsCompiled related depth names owner entries groups ∧ before.Within after := by
  apply steps.pairs before.Within (.refl before)
  intro entry present start group final within fieldSteps
  apply fieldSteps.pairs before.Within within
  intro constraint inside middle expr next reached compiled
  have member := List.mem_flatMap.2 ⟨entry, present, inside⟩
  have own := traced constraint member (List.Subset.trans taken reached) compiled
  exact ⟨own.1, reached.trans own.2⟩

theorem JoinSpec.mem_withEarlier
    {earlier : List String} {joins : List JoinSpec} {entry : List String × JoinSpec}
    (member : entry ∈ withEarlier earlier joins) :
    entry.2 ∈ joins ∧
      entry.1 ++ [entry.2.aliasName] ⊆ earlier ++ joins.map JoinSpec.aliasName := by
  induction joins generalizing earlier with
  | nil => cases member
  | cons join rest step =>
      rw [withEarlier, List.mem_cons] at member
      rcases member with rfl | later
      · exact ⟨List.mem_cons_self, by simp⟩
      · rcases step later with ⟨present, aliases⟩
        exact ⟨List.mem_cons_of_mem _ present, by simpa using aliases⟩

/-- A joined table has the name that its join declares. -/
theorem JoinSpec.table_of_yields {earlier : List String} {join : JoinSpec} {node : Join}
    (yields : Yields (joinNode config depth names earlier join) before node after) :
    node.table = ⟨join.table, some join.aliasName⟩ := by
  rcases yields_joinNode.1 yields with ⟨-, ⟨_, -, -, joined, -⟩ | ⟨_, -, -, -, rfl, -⟩⟩
  · rcases joinVia_eq_ok.1 joined with ⟨_, -, -, -, rfl⟩
    rfl
  · rfl

theorem JoinSpec.references_of_steps {earlier : List String} {joins : List JoinSpec}
    {nodes : List Join}
    (steps : JoinSteps config depth names (withEarlier earlier joins) before nodes after) :
    Join.references nodes = joins.map aliasName := by
  induction joins generalizing earlier before nodes with
  | nil =>
      rcases steps_nil.1 steps with ⟨rfl, -⟩
      rfl
  | cons join rest step =>
      rcases steps_cons.1 steps with ⟨node, _, nodes, head, tail, rfl⟩
      have named : node.table.reference = join.aliasName := by
        rw [table_of_yields head]
        rfl
      rw [List.map_cons, ← step tail, ← named]
      rfl

theorem JoinSpec.compiled_of_yields
    {earlier : List String} {join : JoinSpec} {node : Join}
    (traced : ∀ constraint ∈ join.constraints, constraint.Traced config related)
    (taken : (join.visible names earlier).all ⊆ before.scope.taken)
    (yields : Yields (joinNode config depth names earlier join) before node after) :
    join.Compiled config related depth names earlier node ∧ before.Within after := by
  rcases yields_joinNode.1 yields with ⟨identifier, via | constrained⟩
  · rcases via with ⟨via, given, none, joined, rfl⟩
    rcases joinVia_eq_ok.1 joined with ⟨path, parsed, known, key, rfl⟩
    exact ⟨⟨identifier, rfl, .inl ⟨via, path, given, none, parsed, known, key, rfl⟩⟩,
      .refl _⟩
  · rcases constrained with ⟨groups, none, some, keyless, rfl, steps⟩
    rcases conditionsCompiled_of_steps traced taken steps with ⟨compiled, within⟩
    exact ⟨⟨identifier, rfl, .inr ⟨groups, none, some, keyless, rfl, compiled⟩⟩, within⟩

/-- The names of a query are taken once its source is known, and a generated alias is a new one. -/
theorem QueryFrame.taken_of_source
    {frame : QueryFrame} {source : TableRef}
    (yields : Yields (frame.source config depth) before source after) :
    before.Within after ∧ source.reference :: frame.aliases ⊆ after.scope.taken ∧
      (frame.embedded → source.reference ∉ frame.table :: frame.aliases ∧
        source.reference ∉ before.scope.taken) := by
  rcases yields_source.1 yields with ⟨-, -, -, source⟩
  have reserved {name : String} :
      name ∈ (frame.reserved before.scope).taken ↔
        name ∈ frame.aliases ∨ name = frame.table ∨ name ∈ before.scope.taken := by
    simp [QueryFrame.reserved, AliasScope.mem_taken_foldl_reserve]
  cases embedded : frame.embedded with
  | false =>
      simp only [embedded, Bool.false_eq_true, if_false] at source
      rcases source with ⟨rfl, rfl⟩
      refine ⟨fun name known => reserved.2 (.inr (.inr known)), ?_, by simp⟩
      intro name member
      rcases List.mem_cons.1 member with rfl | joined
      · exact reserved.2 (.inr (.inl rfl))
      · exact reserved.2 (.inl joined)
  | true =>
      simp only [embedded, if_true] at source
      rcases source with ⟨rfl, rfl⟩
      have unused := AliasScope.allocate_not_taken (frame.reserved before.scope) depth
      rw [reserved, not_or, not_or] at unused
      refine ⟨fun name known => List.mem_cons_of_mem _ (reserved.2 (.inr (.inr known))), ?_, ?_⟩
      · intro name member
        rcases List.mem_cons.1 member with rfl | joined
        · exact List.mem_cons_self
        · exact List.mem_cons_of_mem _ (reserved.2 (.inl joined))
      · intro _
        exact ⟨fun clash => (List.mem_cons.1 clash).elim unused.2.1 unused.1, unused.2.2⟩

/-- No join has the name by which the query refers to its own table. -/
theorem QueryFrame.reference_not_mem_aliases
    {frame : QueryFrame} {source : TableRef}
    (yields : Yields (frame.source config depth) before source after) :
    source.reference ∉ frame.aliases := by
  rcases yields_source.1 yields with ⟨-, -, aliases, given⟩
  cases embedded : frame.embedded with
  | true =>
      exact fun clash =>
        ((taken_of_source yields).2.2 embedded).1 (List.mem_cons_of_mem _ clash)
  | false =>
      rw [if_neg (by simp [embedded])] at aliases given
      rw [given.1]
      exact fun clash => ((checkAliases_eq_ok.1 aliases).1 _ clash).2 (List.mem_singleton_self _)

theorem Query.compiled_of_yields
    {enclosing : List String} {query : Query} {select : Select}
    (traced : ∀ constraint ∈ query.constraints, constraint.Traced config related)
    (taken : enclosing ⊆ before.scope.taken)
    (yields : Yields (query.compileAt config depth enclosing) before select after) :
    query.Compiled config related depth enclosing select ∧ before.Within after := by
  rcases yields_compileAt.1 yields with ⟨named, joined, filtered, groups, sourced, joining,
    projected, filtering, conditions, ordered, limited, rfl⟩
  have source := yields_source.1 sourced
  rcases QueryFrame.taken_of_source sourced with ⟨kept, own, fresh⟩
  have visible : (query.namesIn enclosing select).all ⊆ named.scope.taken :=
    List.append_subset.2 ⟨own, List.Subset.trans taken kept⟩
  have joins := joining.pairs named.Within (.refl named) fun entry member => by
    intro start node final within compiled
    rcases JoinSpec.mem_withEarlier member with ⟨present, known⟩
    have inner : (entry.2.visible (query.namesIn enclosing select) entry.1).all ⊆
        (query.namesIn enclosing select).all := by
      rw [List.nil_append] at known
      refine List.cons_subset_cons _ (List.append_subset.2 ⟨?_, List.subset_append_right _ _⟩)
      exact List.Subset.trans known (List.subset_append_left _ _)
    have joined := JoinSpec.compiled_of_yields
      (fun constraint inside => traced constraint
        (List.mem_append_right _ (List.mem_flatMap.2 ⟨_, present, inside⟩)))
      (List.Subset.trans (List.Subset.trans inner visible) within) compiled
    exact ⟨joined.1, within.trans joined.2⟩
  have filters := conditionsCompiled_of_steps
    (fun constraint inside => traced constraint (List.mem_append_left _ inside))
    (List.Subset.trans visible joins.2) filtering
  have through := ((kept.trans joins.2).trans filters.2).trans (query.within_reported filtered)
  refine ⟨⟨source.1, source.2.1, source.2.2.1, ?_, ?_, joins.1, projected,
    ⟨groups, conditions, filters.1⟩, ordered, limited⟩, through⟩
  · cases embedded : query.embedded with
    | false =>
        have plain := source.2.2.2
        rw [if_neg (by simp [Query.frame, embedded])] at plain
        rw [if_neg (by simp)]
        exact plain.1
    | true =>
        have generated := source.2.2.2
        rw [if_pos (by simp [Query.frame, embedded])] at generated
        exact ⟨_, generated.1⟩
  · intro embedded
    rcases fresh embedded with ⟨other, outside⟩
    exact fun clash => (List.mem_append.1 clash).elim other fun known => outside (taken known)

/-- A constraint is related to its condition wherever it is compiled. -/
theorem CompileCases.traced
    {selected : Nat → List String → Query → Select → Prop}
    (cases : CompileCases config related selected)
    (constraint : Constraint) : constraint.Traced config related := by
  induction constraint using Constraint.nested_induction with
  | step constraint nested =>
      intro depth names owner field before expr after taken yields
      cases constraint with
      | compare comparison value =>
          simp only [constraintExpr, yields_bind, yields_lift, yields_pure] at yields
          rcases yields with ⟨column, _, ⟨resolved, rfl⟩, rfl, rfl⟩
          exact ⟨cases.compare resolved, .refl _⟩
      | matching affix text =>
          simp only [constraintExpr, yields_bind, yields_lift, yields_pure] at yields
          rcases yields with ⟨subject, _, ⟨resolved, rfl⟩, rfl, rfl⟩
          exact ⟨cases.matching resolved, .refl _⟩
      | present expected =>
          simp only [constraintExpr, yields_bind, yields_lift, yields_pure] at yields
          rcases yields with ⟨column, _, ⟨resolved, rfl⟩, rfl, rfl⟩
          exact ⟨cases.present resolved, .refl _⟩
      | inList negated values =>
          simp only [constraintExpr, yields_bind, yields_lift, yields_pure] at yields
          rcases yields with ⟨column, _, ⟨resolved, rfl⟩, rfl, rfl⟩
          exact ⟨cases.inList resolved, .refl _⟩
      | inQuery negated subquery =>
          simp only [constraintExpr, subquerySelect_eq, yields_bind, yields_lift,
            yields_pure] at yields
          rcases yields with
            ⟨column, _, ⟨resolved, rfl⟩, select, _, ⟨implied, _, ⟨read, rfl⟩, compiled⟩, rfl, rfl⟩
          have inner : ∀ inside ∈ (subquery.asQuery config implied).constraints,
              inside.Traced config related := by
            rw [Subquery.constraints_asQuery]
            exact nested
          rcases Query.compiled_of_yields inner taken compiled with ⟨query, within⟩
          exact ⟨cases.inQuery resolved read (cases.query query), within⟩

/-- What the cases establish holds of every query that was compiled. -/
theorem CompileCases.statement
    {selected : Nat → List String → Query → Select → Prop}
    (cases : CompileCases config related selected)
    {query : Query} {select : Select}
    (compiled : (query.statement config).1 = .ok select) : selected 0 [] query select := by
  rcases Query.statement_eq_ok.1 compiled with ⟨after, yields⟩
  exact cases.query (Query.compiled_of_yields
    (fun constraint _ => cases.traced constraint) (List.nil_subset _) yields).1

/-! ## What adds up along a compilation -/

/--
A relation between two states and a list of what came about between them: nothing
in no step, and in two parts of a compilation what came about in each.
-/
structure CompileState.AddsUp {α : Type} (relation : CompileState → List α → CompileState → Prop) :
    Prop where
  nothing : ∀ state, relation state [] state
  append : ∀ {before middle after : CompileState} {first second : List α},
    relation before first middle → relation middle second after →
      relation before (first ++ second) after

/-- Wherever the constraint is compiled, the relation holds of what is gathered from its condition. -/
def Constraint.Adds {α : Type} (config : Config)
    (relation : CompileState → List α → CompileState → Prop) (gather : Expr → List α)
    (constraint : Constraint) : Prop :=
  ∀ {depth : Nat} {names : Names} {owner field : String} {before : CompileState} {expr : Expr}
    {after : CompileState},
    Yields (constraintExpr config depth names owner field constraint) before expr after →
    relation before (gather expr) after

namespace CompileState.AddsUp

variable {α : Type} {relation : CompileState → List α → CompileState → Prop}
variable {gather : Expr → List α}

theorem of_steps {β γ : Type} {step : β → CompileState → γ → CompileState → Prop}
    {yielded : γ → List α} {elements : List β} {values : List γ}
    (adds : AddsUp relation) (steps : Steps step elements before values after)
    (each : ∀ element ∈ elements, ∀ start value final, step element start value final →
      relation start (yielded value) final) :
    relation before (values.flatMap yielded) after := by
  induction steps with
  | nil => exact adds.nothing _
  | cons head tail induct =>
      rw [List.flatMap_cons]
      refine adds.append (each _ List.mem_cons_self _ _ _ head) (induct fun element member => ?_)
      exact each element (List.mem_cons_of_mem _ member)

theorem of_conditions
    {owner : String} {entries : List FieldConstraints} {groups : List (List Expr)}
    (adds : AddsUp relation)
    (each : ∀ entry ∈ entries, ∀ constraint ∈ entry.constraints,
      constraint.Adds config relation gather)
    (steps : ConditionSteps config depth names owner entries before groups after) :
    relation before (groups.flatMap fun group => group.flatMap gather) after := by
  refine adds.of_steps steps fun entry present start group final fieldSteps => ?_
  exact adds.of_steps fieldSteps fun constraint inside _ _ _ compiled =>
    each entry present constraint inside compiled

theorem of_join {earlier : List String} {join : JoinSpec} {node : Join}
    (adds : AddsUp relation) (gathered : Expr.Gathered gather)
    (each : ∀ entry ∈ join.entries, ∀ constraint ∈ entry.constraints,
      constraint.Adds config relation gather)
    (yields : Yields (joinNode config depth names earlier join) before node after) :
    relation before (gather node.condition) after := by
  rcases yields_joinNode.1 yields with ⟨-, via | constrained⟩
  · rcases via with ⟨_, -, -, joined, rfl⟩
    rcases joinVia_eq_ok.1 joined with ⟨path, -, -, -, rfl⟩
    rw [gathered.compare, gathered.column, gathered.column]
    exact adds.nothing _
  · rcases constrained with ⟨groups, -, -, -, rfl, steps⟩
    rw [gathered.onCondition]
    exact adds.of_conditions each steps

/-- After its source, what comes about in a query is gathered from its joins and its condition. -/
theorem of_query {query : Query} {enclosing : List String} {select : Select}
    (adds : AddsUp relation) (gathered : Expr.Gathered gather)
    (each : ∀ constraint ∈ query.constraints, constraint.Adds config relation gather)
    (yields : Yields (query.compileAt config depth enclosing) before select after) :
    ∃ named filtered,
      Yields (query.frame.source config depth) before select.source named ∧
      relation named ((select.joins.flatMap fun join => gather join.condition) ++
        select.condition.elim [] gather) filtered ∧
      after = query.reported filtered := by
  rcases yields_compileAt.1 yields with ⟨named, joined, filtered, groups, sourced, joining, -,
    filtering, condition, -, -, reported⟩
  refine ⟨named, filtered, sourced, ?_, reported⟩
  have joins : relation named (select.joins.flatMap fun join => gather join.condition) joined :=
    adds.of_steps joining fun entry member _ _ _ compiled =>
      adds.of_join gathered (fun _ present constraint inside => each constraint
        (Query.mem_constraints_of_join (JoinSpec.mem_withEarlier member).1 present inside)) compiled
  have conditions : relation joined (select.condition.elim [] gather) filtered := by
    rw [condition, gathered.whereClause]
    exact adds.of_conditions (fun _ present constraint inside =>
      each constraint (Query.mem_constraints_of_condition present inside)) filtering
  exact adds.append joins conditions

end CompileState.AddsUp

end SqlScribe
