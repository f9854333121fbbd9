import SqlScribe.Proofs.Compile.Outcome
import SqlScribe.Proofs.Identifier

/-!
# What the compilers of queries do

One statement for each compiler of `SqlScribe.Query.Compile`: when it succeeds,
with which value, and in which state.  The lists of constraints, fields and
joins become `Steps`.

An embedded query is compiled exactly like a query of its own, one level deeper
and with the names around it in scope; the join that it may need for its column
is one more join at the end.  `subquerySelect_eq` says so, and from there
on there is only one kind of query.
-/

namespace SqlScribe

open Compile
open Checked

variable {config : Config} {depth : Nat} {names : Names} {owner field : String}
variable {before after : CompileState}

/-! ## Constraints -/

/-- A pattern is matched with one column, or with the columns that a delimited field lists. -/
theorem patternSubject_eq_ok {affix : Affix} {subject : Expr}
    (resolved : patternSubject config names owner field affix = .ok subject) :
    (∃ column, names.resolveIn owner field = .ok column ∧ subject = .column column) ∨
      (affix = .anywhere ∧ ∃ columns,
        List.Forall₂ (fun part column => names.resolveIn owner (String.ofList part) = .ok column)
          (Text.splitAt config.hasDelimiter field.toList) columns ∧
        subject = .concat columns) := by
  unfold patternSubject at resolved
  split at resolved
  · rename_i several
    simp only [map_eq_ok, mapM_eq_ok] at resolved
    exact .inr ⟨several.1, resolved⟩
  · simp only [map_eq_ok] at resolved
    exact .inl resolved

theorem yields_constraintExprs {constraints : List Constraint} {parts : List Expr} :
    Yields (constraintExprs config depth names owner field constraints) before parts after ↔
      Steps (fun constraint => Yields (constraintExpr config depth names owner field constraint))
        constraints before parts after := by
  induction constraints generalizing before parts after with
  | nil => simp [constraintExprs]
  | cons constraint rest step =>
      simp [constraintExprs, steps_cons, step]

/-- The constraints on some fields become conditions, field by field and one after another. -/
abbrev ConditionSteps (config : Config) (depth : Nat) (names : Names) (owner : String) :
    List FieldConstraints → CompileState → List (List Expr) → CompileState → Prop :=
  Steps fun entry => Steps
    (fun constraint => Yields (constraintExpr config depth names owner entry.field constraint))
    entry.constraints

/-- The conditions of some fields are the parts that the fields contribute, one after another. -/
theorem yields_conditionExprs {entries : List FieldConstraints} {parts : List Expr} :
    Yields (conditionExprs config depth names owner entries) before parts after ↔
      ∃ groups, parts = groups.flatMap fieldParts ∧
        ConditionSteps config depth names owner entries before groups after := by
  induction entries generalizing before parts after with
  | nil => simp [conditionExprs]
  | cons entry rest step =>
      rcases entry with ⟨field, constraints⟩
      simp only [conditionExprs, fieldExprs, yields_bind, yields_pure, yields_constraintExprs,
        steps_cons, step]
      constructor
      · rintro ⟨_, middle, ⟨first, _, head, rfl, rfl⟩, _, _, ⟨others, rfl, tail⟩, rfl, rfl⟩
        exact ⟨first :: others, rfl, first, middle, others, head, tail, rfl⟩
      · rintro ⟨_, rfl, first, middle, others, head, tail, rfl⟩
        exact ⟨_, middle, ⟨first, middle, head, rfl, rfl⟩, _, after, ⟨others, rfl, tail⟩, rfl, rfl⟩

/-! ## Joins -/

/-- Joins, each with the aliases of those before it. -/
def JoinSpec.withEarlier (earlier : List String) : List JoinSpec → List (List String × JoinSpec)
  | [] => []
  | join :: rest => (earlier, join) :: withEarlier (earlier ++ [join.aliasName]) rest

/-- Joins become nodes one after another. -/
abbrev JoinSteps (config : Config) (depth : Nat) (names : Names) :
    List (List String × JoinSpec) → CompileState → List Join → CompileState → Prop :=
  Steps fun entry => Yields (joinNode config depth names entry.1 entry.2)

theorem yields_joinNodes {earlier : List String} {joins : List JoinSpec} {nodes : List Join} :
    Yields (joinNodes config depth names earlier joins) before nodes after ↔
      JoinSteps config depth names (JoinSpec.withEarlier earlier joins) before nodes after := by
  induction joins generalizing earlier before nodes after with
  | nil => simp [joinNodes, JoinSpec.withEarlier]
  | cons join rest step =>
      simp only [joinNodes, JoinSpec.withEarlier, yields_bind, yields_pure, steps_cons, step]
      constructor
      · rintro ⟨first, middle, head, others, final, tail, rfl, rfl⟩
        exact ⟨first, middle, others, head, tail, rfl⟩
      · rintro ⟨first, middle, others, head, tail, rfl⟩
        exact ⟨first, middle, head, others, after, tail, rfl, rfl⟩

theorem joinVia_eq_ok
    {earlier : List String} {joined : TableRef} {via : String} {targetKey : Option String}
    {node : Join} :
    joinVia config names earlier joined via targetKey = .ok node ↔
      ∃ path, ColumnPath.parse via = .ok path ∧
        (∀ qualifier ∈ path.qualifier, qualifier = names.primary ∨ qualifier ∈ earlier) ∧
        IsIdentifier (targetKey.getD config.identifierKey) ∧
        node = ⟨joined,
          .compare (.column ⟨some (path.qualifier.getD names.primary), path.name⟩) .equal
            (.column ⟨some joined.reference, targetKey.getD config.identifierKey⟩)⟩ := by
  simp only [joinVia, bind_eq_ok]
  refine exists_congr fun path => and_congr_right fun _ => ?_
  rcases path with ⟨_ | qualifier, name⟩
  · simp [checkName_eq_ok]
  · by_cases own : qualifier = names.primary
    · simp [checkName_eq_ok, own]
    · by_cases known : qualifier ∈ earlier
      · simp [checkName_eq_ok, known]
      · simp [own, known]

/-- The constraints of a join, if there are any: no constraints at all count as none given. -/
def JoinSpec.entries (join : JoinSpec) : List FieldConstraints :=
  (join.conditions.map ConstraintMap.entries).getD []

/-- The names in scope in the constraints of a join. -/
def JoinSpec.visible (join : JoinSpec) (names : Names) (earlier : List String) : Names :=
  { names with aliases := earlier ++ [join.aliasName] }

/-- The ON condition of a join with constraints. -/
def onCondition (parts : List Expr) : Expr :=
  .group (if parts.isEmpty then .truth else Expr.conjunction parts)

theorem yields_joinNode {earlier : List String} {join : JoinSpec} {node : Join} :
    Yields (joinNode config depth names earlier join) before node after ↔
      IsIdentifier join.table ∧
        ((∃ via, join.via = some via ∧ join.entries = [] ∧
            joinVia config names earlier ⟨join.table, some join.aliasName⟩ via join.targetKey =
              .ok node ∧
            after = before) ∨
          (∃ groups, join.via = none ∧ join.entries ≠ [] ∧ join.targetKey = none ∧
            node = ⟨⟨join.table, some join.aliasName⟩, onCondition (groups.flatMap fieldParts)⟩ ∧
            ConditionSteps config depth (join.visible names earlier) join.aliasName join.entries
              before groups after)) := by
  rcases join with ⟨table, aliasName, via, _ | ⟨entries⟩, targetKey⟩
  · rcases via with _ | via
    · simp [joinNode, JoinSpec.entries]
    · simp [joinNode, JoinSpec.entries, checkName_eq_ok, and_assoc]
  · rcases via with _ | via <;> rcases entries with _ | ⟨entry, rest⟩
    · simp [joinNode, JoinSpec.entries]
    · rcases targetKey with _ | targetKey
      · simp only [joinNode, JoinSpec.entries, JoinSpec.visible, onCondition, yields_bind,
          yields_lift, checkName_eq_ok, List.isEmpty_cons, Option.isSome_none, Bool.false_eq_true,
          if_false, yields_conditionExprs, yields_pure, Option.map_some, Option.getD_some]
        constructor
        · rintro ⟨_, _, ⟨⟨identifier, rfl⟩, rfl⟩, _, _, ⟨groups, rfl, steps⟩, rfl, rfl⟩
          exact ⟨identifier, .inr ⟨groups, trivial, by simp, trivial, rfl, steps⟩⟩
        · rintro ⟨identifier, ⟨_, impossible, _⟩ | ⟨groups, -, -, -, rfl, steps⟩⟩
          · cases impossible
          · exact ⟨_, _, ⟨⟨identifier, rfl⟩, rfl⟩, _, after, ⟨groups, rfl, steps⟩, rfl, rfl⟩
      · simp [joinNode, JoinSpec.entries]
    · simp [joinNode, JoinSpec.entries, checkName_eq_ok, and_assoc]
    · simp [joinNode, JoinSpec.entries]

/-! ## Queries -/

/-- The supply of aliases once the names that a query introduces are taken. -/
def QueryFrame.reserved (frame : QueryFrame) (scope : AliasScope) : AliasScope :=
  frame.aliases.foldl AliasScope.reserve (scope.reserve frame.table)

theorem yields_reserveAll {names : List String} {value : PUnit} :
    Yields (forM names Compile.reserve) before value after ↔
      after = { before with scope := names.foldl AliasScope.reserve before.scope } := by
  induction names generalizing before with
  | nil => simp
  | cons name rest step => simp [step]

/-- Aliases are accepted if they are different names that were not used before. -/
theorem checkAliases_eq_ok {used names : List String} :
    checkAliases used names = .ok () ↔
      (∀ name ∈ names, IsIdentifier name ∧ name ∉ used) ∧ names.Nodup := by
  induction names generalizing used with
  | nil => simp [checkAliases]
  | cons name rest step =>
      simp only [checkAliases, bind_eq_ok, checkName_eq_ok]
      by_cases known : name ∈ used
      · simp [known]
      · simp only [List.contains_iff_mem, known, if_false, step, List.forall_mem_cons,
          List.nodup_cons]
        constructor
        · rintro ⟨_, ⟨identifier, rfl⟩, others, distinct⟩
          refine ⟨⟨⟨identifier, not_false⟩, fun other member => ?_⟩, fun again => ?_, distinct⟩
          · exact ⟨(others other member).1,
              fun earlier => (others other member).2 (List.mem_cons_of_mem _ earlier)⟩
          · exact (others _ again).2 List.mem_cons_self
        · rintro ⟨⟨⟨identifier, -⟩, others⟩, once, distinct⟩
          refine ⟨name, ⟨identifier, rfl⟩, fun other member => ⟨(others other member).1, ?_⟩, distinct⟩
          intro clash
          rcases List.mem_cons.1 clash with rfl | earlier
          · exact once member
          · exact (others other member).2 earlier

theorem yields_source {frame : QueryFrame} {source : TableRef} :
    Yields (frame.source config depth) before source after ↔
      depth ≤ config.maxSubqueryDepth ∧ IsIdentifier frame.table ∧
        checkAliases (if frame.embedded then [] else [frame.table]) frame.aliases = .ok () ∧
        if frame.embedded then
          source =
            ⟨frame.table, some ((frame.reserved before.scope).allocate depth).1⟩ ∧
          after =
            { before with scope := ((frame.reserved before.scope).allocate depth).2 }
        else
          source = ⟨frame.table, none⟩ ∧
          after = { before with scope := frame.reserved before.scope } := by
  unfold QueryFrame.source QueryFrame.reserved
  have unit {p : Unit → Prop} : (∃ value, p value) ↔ p () :=
    ⟨fun ⟨(), holds⟩ => holds, fun holds => ⟨(), holds⟩⟩
  by_cases deep : config.maxSubqueryDepth < depth
  · simp [deep, Nat.not_le.2 deep]
  · have shallow := Nat.not_lt.1 deep
    cases embedded : frame.embedded
    · simp [deep, shallow, checkName_eq_ok, yields_reserveAll, unit, and_comm]
    · simp [deep, shallow, checkName_eq_ok, yields_reserveAll, unit, and_comm]

/-- The item of a SELECT list for a selected column; inside another query it has no output name. -/
def Selection.Item (names : Names) (embedded : Bool) (selection : Selection) (item : SelectItem) :
    Prop :=
  names.resolve selection.path = .ok item.column ∧
    if embedded then item.output = none
    else IsIdentifier selection.output ∧ item.output = some selection.output

theorem items_of_selectItems
    {embedded : Bool} {used : List String} {selection : List Selection} {items : List SelectItem}
    (read : selectItems names embedded used selection = .ok items) :
    List.Forall₂ (Selection.Item names embedded) selection items := by
  induction selection generalizing used items with
  | nil =>
      cases read
      exact .nil
  | cons first rest step =>
      simp only [selectItems, bind_eq_ok] at read
      rcases read with ⟨column, resolved, others⟩
      split at others
      · rename_i embedded
        simp only [bind_eq_ok, pure_eq_ok] at others
        rcases others with ⟨items, read, rfl⟩
        exact .cons ⟨resolved, by simp [embedded]⟩ (step read)
      · rename_i standing
        simp only [bind_eq_ok, checkName_eq_ok] at others
        rcases others with ⟨_, ⟨identifier, rfl⟩, others⟩
        split at others
        · simp at others
        · simp only [bind_eq_ok, pure_eq_ok] at others
          rcases others with ⟨items, read, rfl⟩
          exact .cons ⟨resolved, by simp [standing, identifier]⟩ (step read)

/-- What a query returns: all columns, or an item for each selected one. -/
theorem projection_of_frame
    {frame : QueryFrame} {projection : Projection}
    (read : frame.projection names = .ok projection) :
    (frame.selection = [] ∧ projection = .all) ∨
      ∃ items, frame.selection ≠ [] ∧ projection = .columns items ∧
        List.Forall₂ (Selection.Item names frame.embedded) frame.selection items := by
  unfold QueryFrame.projection at read
  split at read
  · rename_i empty
    cases read
    exact .inl ⟨List.isEmpty_iff.1 empty, rfl⟩
  · rename_i some
    simp only [map_eq_ok] at read
    rcases read with ⟨items, read, rfl⟩
    exact .inr ⟨items, fun empty => some (List.isEmpty_iff.2 empty), rfl,
      items_of_selectItems read⟩

/-- Every sorted field was resolved and keeps its direction. -/
theorem order_of_frame
    {frame : QueryFrame} {keys : List OrderKey} (read : frame.order names = .ok keys) :
    List.Forall₂
      (fun sort key => names.resolve sort.field = .ok key.column ∧ key.direction = sort.direction)
      frame.sort keys := by
  simp only [QueryFrame.order, mapM_eq_ok, bind_eq_ok, pure_eq_ok] at read
  apply read.imp
  rintro sort _ ⟨column, resolved, rfl⟩
  exact ⟨resolved, rfl⟩

/-- The WHERE clause that conditions form. -/
def whereClause (parts : List Expr) : Option Expr :=
  if parts.isEmpty then none else some (Expr.conjunction parts)

/-- A property that a conjunction and a group of conditions inherit from the conditions. -/
structure Expr.Inherited (holds : Expr → Prop) : Prop where
  truth : holds .truth
  and : ∀ {parts}, (∀ part ∈ parts, holds part) → holds (.and parts)
  group : ∀ {inner}, holds inner → holds (.group inner)

namespace Expr.Inherited

variable {holds : Expr → Prop} {parts : List Expr} {groups : List (List Expr)}

theorem conjunction (inherited : Inherited holds) (each : ∀ part ∈ parts, holds part) :
    holds (Expr.conjunction parts) := by
  unfold Expr.conjunction
  split
  · exact each _ List.mem_cons_self
  · exact inherited.and each

theorem fieldParts (inherited : Inherited holds) (each : ∀ part ∈ parts, holds part) :
    ∀ part ∈ fieldParts parts, holds part := by
  unfold SqlScribe.fieldParts
  split
  · simp
  · exact each
  · simpa using inherited.group (inherited.and each)

theorem allParts
    (inherited : Inherited holds) (each : ∀ group ∈ groups, ∀ part ∈ group, holds part) :
    ∀ part ∈ groups.flatMap SqlScribe.fieldParts, holds part := by
  intro part member
  rcases List.mem_flatMap.1 member with ⟨group, present, inside⟩
  exact inherited.fieldParts (each group present) part inside

theorem whereClause
    (inherited : Inherited holds) (each : ∀ group ∈ groups, ∀ part ∈ group, holds part) :
    ∀ condition ∈ whereClause (groups.flatMap SqlScribe.fieldParts), holds condition := by
  intro condition member
  unfold SqlScribe.whereClause at member
  split at member
  · cases member
  · cases member
    exact inherited.conjunction (inherited.allParts each)

theorem onCondition
    (inherited : Inherited holds) (each : ∀ group ∈ groups, ∀ part ∈ group, holds part) :
    holds (onCondition (groups.flatMap SqlScribe.fieldParts)) := by
  unfold SqlScribe.onCondition
  apply inherited.group
  split
  · exact inherited.truth
  · exact inherited.conjunction (inherited.allParts each)

end Expr.Inherited

/-- A list that is gathered from the queries in a condition part by part, in order. -/
structure Expr.Gathered {α : Type} (gather : Expr → List α) : Prop where
  truth : gather .truth = []
  column : ∀ column, gather (.column column) = []
  concat : ∀ columns, gather (.concat columns) = []
  literal : ∀ value, gather (.literal value) = []
  compare : ∀ left comparison right,
    gather (.compare left comparison right) = gather left ++ gather right
  like : ∀ subject pattern, gather (.like subject pattern) = gather subject
  nullCheck : ∀ subject isNull, gather (.nullCheck subject isNull) = gather subject
  inList : ∀ subject values negated, gather (.inList subject values negated) = gather subject
  and : ∀ parts, gather (.and parts) = parts.flatMap gather
  group : ∀ inner, gather (.group inner) = gather inner

namespace Expr.Gathered

variable {α : Type} {gather : Expr → List α} {parts : List Expr} {groups : List (List Expr)}

theorem conjunction (gathered : Gathered gather) :
    gather (Expr.conjunction parts) = parts.flatMap gather := by
  unfold Expr.conjunction
  split
  · exact (List.flatMap_singleton gather _).symm
  · exact gathered.and parts

theorem fieldParts (gathered : Gathered gather) :
    (SqlScribe.fieldParts parts).flatMap gather = parts.flatMap gather := by
  unfold SqlScribe.fieldParts
  split
  · rfl
  · rfl
  · rw [List.flatMap_singleton, gathered.group, gathered.and]

theorem allParts (gathered : Gathered gather) :
    (groups.flatMap SqlScribe.fieldParts).flatMap gather =
      groups.flatMap fun group => group.flatMap gather := by
  rw [List.flatMap_assoc]
  exact congrArg groups.flatMap (funext fun _ => gathered.fieldParts)

theorem onCondition (gathered : Gathered gather) :
    gather (SqlScribe.onCondition (groups.flatMap SqlScribe.fieldParts)) =
      groups.flatMap fun group => group.flatMap gather := by
  rw [← gathered.allParts, SqlScribe.onCondition, gathered.group]
  split
  · rename_i empty
    rw [List.isEmpty_iff.1 empty, gathered.truth]
    rfl
  · exact gathered.conjunction

theorem whereClause (gathered : Gathered gather) :
    (SqlScribe.whereClause (groups.flatMap SqlScribe.fieldParts)).elim [] gather =
      groups.flatMap fun group => group.flatMap gather := by
  rw [← gathered.allParts, SqlScribe.whereClause]
  split
  · rename_i empty
    rw [List.isEmpty_iff.1 empty]
    rfl
  · exact gathered.conjunction

end Expr.Gathered

/-- The state after a query that passes over rows without a limit has been reported. -/
def Query.reported (query : Query) (state : CompileState) : CompileState :=
  match query.skip, query.limit with
  | some skip, none =>
      { state with events := state.events ++ [.skipWithoutLimit query.table skip] }
  | _, _ => state

/-- Compiles a query at some depth, with names in scope around it. -/
def Query.compileAt
    (config : Config) (depth : Nat) (enclosing : List String) (query : Query) : Compile Select :=
  query.frame.assemble config depth enclosing
    (fun names => joinNodes config depth names [] query.joins)
    (fun names => conditionExprs config depth names names.primary query.conditions.entries)

/-- The names that are in scope in a query that became this SELECT. -/
def Query.namesIn (query : Query) (enclosing : List String) (select : Select) : Names :=
  ⟨select.source.reference, query.joins.map JoinSpec.aliasName, enclosing⟩

theorem yields_compileAt {query : Query} {enclosing : List String} {select : Select} :
    Yields (query.compileAt config depth enclosing) before select after ↔
      ∃ named joined filtered groups,
        Yields (query.frame.source config depth) before select.source named ∧
        JoinSteps config depth (query.namesIn enclosing select)
          (JoinSpec.withEarlier [] query.joins) named select.joins joined ∧
        query.frame.projection (query.namesIn enclosing select) = .ok select.projection ∧
        ConditionSteps config depth (query.namesIn enclosing select) select.source.reference
          query.conditions.entries joined groups filtered ∧
        select.condition = whereClause (groups.flatMap fieldParts) ∧
        query.frame.order (query.namesIn enclosing select) = .ok select.order ∧
        select.limit = ⟨query.skip, query.limit⟩ ∧
        after = query.reported filtered := by
  simp only [Query.compileAt, QueryFrame.assemble, yields_bind, yields_lift, yields_joinNodes,
    yields_conditionExprs]
  rcases select with ⟨projection, source, joins, condition, order, limit⟩
  constructor
  · rintro ⟨builtSource, named, sourced, builtJoins, _, joining, builtProjection, joined,
      ⟨projected, rfl⟩, _, _, ⟨groups, rfl, filtering⟩, builtOrder, filtered, ⟨ordered, rfl⟩, ending⟩
    have finished :
        (⟨projection, source, joins, condition, order, limit⟩ : Select) =
            ⟨builtProjection, builtSource, builtJoins, whereClause (groups.flatMap fieldParts),
              builtOrder, ⟨query.skip, query.limit⟩⟩ ∧
          after = query.reported filtered := by
      clear sourced joining projected filtering ordered
      rcases query with ⟨_, _, _, _, _, _ | skip, _ | limit, _⟩ <;>
        simpa [Query.frame, Query.reported, whereClause, and_comm, and_left_comm] using ending
    rcases finished with ⟨same, rfl⟩
    cases same
    exact ⟨named, joined, filtered, groups, sourced, joining, projected, filtering, rfl, ordered,
      rfl, rfl⟩
  · rintro ⟨named, joined, filtered, groups, sourced, joining, projected, filtering, conditions,
      ordered, limited, rfl⟩
    simp only at sourced projected conditions ordered limited
    subst conditions limited
    refine ⟨source, named, sourced, joins, joined, joining, projection, _, ⟨projected, rfl⟩, _,
      filtered, ⟨groups, rfl, filtering⟩, order, _, ⟨ordered, rfl⟩, ?_⟩
    rcases query with ⟨_, _, _, _, _, _ | skip, _ | limit, _⟩ <;>
      simp [Query.frame, Query.reported, whereClause]

/-- A query has a statement if it compiles with all aliases free and no names around it. -/
theorem Query.statement_eq_ok {query : Query} {select : Select} :
    (query.statement config).1 = .ok select ↔
      ∃ after, Yields (query.compileAt config 0 []) ⟨.empty, []⟩ select after := by
  constructor
  · intro compiled
    exact ⟨(outcome (query.compileAt config 0 []) ⟨.empty, []⟩).2, Prod.ext compiled rfl⟩
  · rintro ⟨after, yields⟩
    exact congrArg Prod.fst yields

/-- The text of an operation is that of the SELECT that it makes of the one for the query. -/
theorem Query.toSql_eq (query : Query) (operation : ReadOperation) :
    (query.toSql config operation).1 =
      (query.statement config).1 >>= fun select =>
        (Statement.select (adapted select operation)).toSql := by
  simp only [toSql]
  split <;> rfl

/-! ## Embedded queries -/

/-- The join that an embedded query needs for an alias that it does not declare. -/
def JoinSpec.implied (config : Config) (aliasName : String) : JoinSpec :=
  ⟨aliasName, aliasName, some aliasName, none, some config.identifierKey⟩

@[simp]
theorem JoinSpec.aliasName_implied {aliasName : String} :
    (JoinSpec.implied config aliasName).aliasName = aliasName := rfl

/-- An embedded query as a query of its own, with the join that it may need for its column. -/
def Subquery.asQuery (config : Config) (subquery : Subquery) (implied : Option String) : Query :=
  { table := subquery.table
    selection := [.column subquery.select]
    joins := subquery.joins ++ (implied.map (JoinSpec.implied config)).toList
    conditions := subquery.conditions
    skip := subquery.skip
    limit := subquery.limit
    embedded := true }

theorem joinNodes_append {earlier : List String} {joins more : List JoinSpec} :
    joinNodes config depth names earlier (joins ++ more) = (do
      let first ← joinNodes config depth names earlier joins
      let others ← joinNodes config depth names (earlier ++ joins.map JoinSpec.aliasName) more
      pure (first ++ others)) := by
  induction joins generalizing earlier with
  | nil => simp [joinNodes]
  | cons join rest step => simp [joinNodes, step]

theorem joinNode_implied {earlier : List String} {aliasName : String} :
    joinNode config depth names earlier (.implied config aliasName) =
      liftM (impliedJoin config names earlier aliasName) := by
  simp only [JoinSpec.implied, joinNode, impliedJoin, checkName]
  rcases checkSegment aliasName aliasName.toList with _ | table <;> rfl

/-- An embedded query is compiled like a query of its own, one level deeper. -/
theorem subquerySelect_eq {subquery : Subquery} :
    subquerySelect config depth names subquery = (do
      let implied ←
        undeclaredAlias? subquery.select (subquery.joins.map JoinSpec.aliasName)
      (subquery.asQuery config implied).compileAt config (depth + 1) names.all) := by
  rcases subquery with ⟨table, select, ⟨entries⟩, joins, skip, limit⟩
  simp only [subquerySelect]
  refine congrArg _ (funext fun implied => ?_)
  cases implied with
  | none => simp [Query.compileAt, Query.frame, Subquery.asQuery]
  | some aliasName =>
      simp [Query.compileAt, Query.frame, Subquery.asQuery, joinNodes_append, joinNodes,
        joinNode_implied]

end SqlScribe
