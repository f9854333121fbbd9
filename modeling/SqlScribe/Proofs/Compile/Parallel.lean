import SqlScribe.Proofs.GeneratedAliases
import SqlScribe.Proofs.Renaming

/-!
# Two compilations of one query

The same query can be compiled at different depths, with different names around
it and with different aliases taken.  The SELECTs then differ in their generated
aliases only: `Query.alike_of_yields` and `Query.Body.alike`.

Two trees are `Alike` if their aliases can be put in pairs such that every
renaming that respects the pairs takes one tree to the other.  The pairs of a
tree are those of its parts, one after another, so trees that are alike part by
part are alike.
-/

namespace SqlScribe

open Compile
open Checked

/-! ## Trees that are alike -/

/-- Every admissible renaming that respects the aliases of the trees takes one to the other. -/
def Alike {α : Type} (aliases : α → List String) (renamed : (String → String) → α → α)
    (admissible : (String → String) → Prop) (first second : α) : Prop :=
  ∃ pairs : List (String × String),
    pairs.map Prod.fst = aliases first ∧ pairs.map Prod.snd = aliases second ∧
      (∀ pair ∈ pairs, IsGeneratedAlias pair.1) ∧
      ∀ rename, admissible rename → (∀ pair ∈ pairs, rename pair.1 = pair.2) →
        second = renamed rename first

/-- Lists are alike if their elements are. -/
theorem Alike.of_forall₂
    {α : Type} {aliases : α → List String} {renamed : (String → String) → α → α}
    {admissible : (String → String) → Prop} {firsts seconds : List α}
    (each : List.Forall₂ (Alike aliases renamed admissible) firsts seconds) :
    Alike (fun values => values.flatMap aliases) (fun rename => List.map (renamed rename))
      admissible firsts seconds := by
  induction each with
  | nil => exact ⟨[], rfl, rfl, by simp, fun _ _ _ => rfl⟩
  | cons head _ step =>
      rcases head with ⟨pairs, first, second, generated, takes⟩
      rcases step with ⟨others, front, back, generatedToo, takesRest⟩
      refine ⟨pairs ++ others, ?_, ?_, ?_, ?_⟩
      · simp only [List.map_append, first, front, List.flatMap_cons]
      · simp only [List.map_append, second, back, List.flatMap_cons]
      · exact List.forall_mem_append.2 ⟨generated, generatedToo⟩
      · intro rename admissible respects
        rw [List.forall_mem_append] at respects
        rw [takes rename admissible respects.1, takesRest rename admissible respects.2]
        rfl

/-- The renaming leaves fixed names alone and takes one name to the other. -/
structure Admits (fixed : String → Prop) (first second : String) (rename : String → String) :
    Prop where
  fixed : ∀ name, fixed name → rename name = name
  owner : rename first = second

namespace Admits

variable {fixed : String → Prop} {first second : String} {rename : String → String}
variable {spared : List String}

theorem sparing (admits : Admits fixed first second rename) (visible : first ∉ spared) :
    Admits fixed first second (sparing spared rename) where
  fixed name written := sparing_of_fixed (admits.fixed name written)
  owner := (sparing_of_not_mem visible).trans admits.owner

theorem sparing_self {name : String} (admits : Admits fixed first second rename)
    (member : name ∈ spared) : Admits fixed name name (SqlScribe.sparing spared rename) where
  fixed name written := sparing_of_fixed (admits.fixed name written)
  owner := sparing_of_mem member

end Admits

/-! ## What can be renamed -/

/-- The qualifiers in the constraint stay, and no table in it has a name of the generated form. -/
structure Constraint.Renamable
    (config : Config) (fixed : String → Prop) (field : String) (constraint : Constraint) :
    Prop where
  qualifiers : constraint.Qualifiers config fixed field
  tableNames : ∀ negated subquery, constraint = .inQuery negated subquery →
    (subquery.completed config).TableNames config (¬ IsGeneratedAlias ·)

/-- The qualifiers in the query stay, and no table in it has a name of the generated form. -/
structure Query.Renamable (config : Config) (fixed : String → Prop) (query : Query) : Prop where
  qualifiers : query.Qualifiers config fixed
  tableNames : query.TableNames config (¬ IsGeneratedAlias ·)

namespace Query.Renamable

variable {config : Config} {fixed : String → Prop} {query : Query}
variable {entry : FieldConstraints} {constraint : Constraint}

theorem aliases (renamable : query.Renamable config fixed) :
    ∀ aliasName ∈ query.joins.map JoinSpec.aliasName, ¬ IsGeneratedAlias aliasName :=
  fun aliasName member =>
    renamable.tableNames.own aliasName (List.mem_cons_of_mem query.table member)

theorem condition (renamable : query.Renamable config fixed)
    (member : entry ∈ query.conditions.entries) (inside : constraint ∈ entry.constraints) :
    constraint.Renamable config fixed entry.field where
  qualifiers := renamable.qualifiers.condition member inside
  tableNames := by
    rintro negated subquery rfl
    exact renamable.tableNames.inner (mem_constraints_of_condition member inside)

theorem joinCondition (renamable : query.Renamable config fixed) {join : JoinSpec}
    (present : join ∈ query.joins) (member : entry ∈ join.entries)
    (inside : constraint ∈ entry.constraints) :
    constraint.Renamable config fixed entry.field where
  qualifiers := renamable.qualifiers.joinCondition present member inside
  tableNames := by
    rintro negated subquery rfl
    exact renamable.tableNames.inner (mem_constraints_of_join present member inside)

end Query.Renamable

/-! ## Columns -/

section Columns

variable {config : Config} {names others : Names} {owner other field path : String}
variable {rename : String → String}

theorem Names.renamed_of_resolveIn {first second : ColumnRef}
    (one : names.resolveIn owner path = .ok first)
    (two : others.resolveIn other path = .ok second)
    (owners : rename owner = other)
    (written : ∀ qualifier, QualifiedBy path qualifier → rename qualifier = qualifier) :
    second = first.renamed rename := by
  rcases resolveIn_eq_ok.1 one with ⟨parsed, read, -, rfl⟩
  rcases resolveIn_eq_ok.1 two with ⟨again, reread, -, rfl⟩
  cases read.symm.trans reread
  cases given : parsed.qualifier with
  | none => simp [ColumnRef.renamed, owners]
  | some qualifier => simp [ColumnRef.renamed, written qualifier ⟨parsed, read, given⟩]

theorem renamed_of_patternSubject {constraint : Constraint} {first second : Expr}
    (one : patternSubject config names owner field constraint.affix = .ok first)
    (two : patternSubject config others other field constraint.affix = .ok second)
    (owners : rename owner = other)
    (written : ∀ path ∈ constraint.paths config field, ∀ qualifier, QualifiedBy path qualifier →
      rename qualifier = qualifier) :
    second = first.renamed rename := by
  unfold patternSubject at one two
  unfold Constraint.paths at written
  by_cases several : constraint.affix = .anywhere ∧ config.hasDelimiter ∈ field.toList
  · simp only [if_pos several, map_eq_ok, mapM_eq_ok, List.forall_mem_map] at one two written
    rcases one with ⟨columns, read, rfl⟩
    rcases two with ⟨more, reread, rfl⟩
    have renamed : more = columns.map (ColumnRef.renamed rename) :=
      eq_map_of_common read reread fun part member column another head next =>
        Names.renamed_of_resolveIn head next owners (written part member)
    rw [renamed, Expr.renamed]
  · simp only [if_neg several, map_eq_ok, List.forall_mem_singleton] at one two written
    rcases one with ⟨column, read, rfl⟩
    rcases two with ⟨another, reread, rfl⟩
    rw [Expr.renamed, Names.renamed_of_resolveIn read reread owners written]

/-- The items of a SELECT list keep their output names. -/
theorem QueryFrame.renamed_projection {frame : QueryFrame} {first second : Projection}
    (one : frame.projection names = .ok first) (two : frame.projection others = .ok second)
    (owners : rename names.primary = others.primary)
    (written : ∀ item ∈ frame.selection, ∀ qualifier, QualifiedBy item.path qualifier →
      rename qualifier = qualifier) :
    second = first.renamed rename := by
  rcases projection_of_frame one with ⟨empty, rfl⟩ | ⟨items, some, rfl, each⟩
  · rcases projection_of_frame two with ⟨-, rfl⟩ | ⟨_, some, -⟩
    · rfl
    · exact absurd empty some
  · rcases projection_of_frame two with ⟨empty, -⟩ | ⟨more, -, rfl, eachToo⟩
    · exact absurd empty some
    · have renamed : more = items.map (SelectItem.renamed rename) := by
        refine eq_map_of_common each eachToo fun item member column another head next => ?_
        rcases column with ⟨column, output⟩
        rcases another with ⟨again, outputToo⟩
        rcases head with ⟨resolved, named⟩
        rcases next with ⟨resolvedToo, namedToo⟩
        have same : outputToo = output := by
          cases embedded : frame.embedded with
          | true =>
              rw [if_pos embedded] at named namedToo
              exact namedToo.trans named.symm
          | false =>
              rw [if_neg (by simp [embedded])] at named namedToo
              exact namedToo.2.trans named.2.symm
        have moved : again = column.renamed rename :=
          Names.renamed_of_resolveIn resolved resolvedToo owners (written item member)
        rw [same, moved]
        rfl
      rw [renamed, Projection.renamed]

theorem QueryFrame.renamed_order {frame : QueryFrame} {first second : List OrderKey}
    (one : frame.order names = .ok first) (two : frame.order others = .ok second)
    (owners : rename names.primary = others.primary)
    (written : ∀ key ∈ frame.sort, ∀ qualifier, QualifiedBy key.field qualifier →
      rename qualifier = qualifier) :
    second = first.map (OrderKey.renamed rename) := by
  refine eq_map_of_common (order_of_frame one) (order_of_frame two) ?_
  rintro key member ⟨column, direction⟩ ⟨another, directionToo⟩ ⟨resolved, rfl⟩ ⟨again, rfl⟩
  have moved : another = column.renamed rename :=
    Names.renamed_of_resolveIn resolved again owners (written key member)
  rw [moved]
  rfl

end Columns

/-! ## Constraints and joins -/

variable {config : Config} {depth level : Nat} {names others : Names} {owner other : String}
variable {before after start finish : CompileState} {fixed : String → Prop}

/-- Wherever the constraint is compiled twice, the conditions are alike. -/
def Constraint.Parallel
    (config : Config) (fixed : String → Prop) (constraint : Constraint) : Prop :=
  ∀ {depth level : Nat} {names others : Names} {owner other field : String}
    {before after start finish : CompileState} {first second : Expr},
    constraint.Renamable config fixed field →
    Yields (constraintExpr config depth names owner field constraint) before first after →
    Yields (constraintExpr config level others other field constraint) start second finish →
    Alike Expr.fromAliases Expr.renamed (Admits fixed owner other) first second

/-- The aliases in conditions, which are put together field by field. -/
def groupAliases (groups : List (List Expr)) : List String :=
  groups.flatMap fun group => group.flatMap Expr.fromAliases

/-- The conditions with renamed tables. -/
def groupsRenamed (rename : String → String) (groups : List (List Expr)) : List (List Expr) :=
  groups.map (List.map (Expr.renamed rename))

theorem alike_of_conditions {entries : List FieldConstraints} {first second : List (List Expr)}
    (parallel : ∀ entry ∈ entries, ∀ constraint ∈ entry.constraints,
      constraint.Parallel config fixed)
    (renamable : ∀ entry ∈ entries, ∀ constraint ∈ entry.constraints,
      constraint.Renamable config fixed entry.field)
    (one : ConditionSteps config depth names owner entries before first after)
    (two : ConditionSteps config level others other entries start second finish) :
    Alike groupAliases groupsRenamed (Admits fixed owner other) first second := by
  refine .of_forall₂ (forall₂_of_common one.forall₂ two.forall₂ ?_)
  rintro entry present group more ⟨_, _, fieldSteps⟩ ⟨_, _, moreSteps⟩
  refine .of_forall₂ (forall₂_of_common fieldSteps.forall₂ moreSteps.forall₂ ?_)
  rintro constraint inside expr another ⟨_, _, compiled⟩ ⟨_, _, compiledToo⟩
  exact parallel entry present constraint inside (renamable entry present constraint inside)
    compiled compiledToo

/-- The aliases of conditions are alike if the ones are that they are formed of. -/
theorem Alike.onCondition {admissible : (String → String) → Prop} {first second : List (List Expr)}
    (alike : Alike groupAliases groupsRenamed admissible first second) :
    Alike Expr.fromAliases Expr.renamed admissible
      (onCondition (first.flatMap fieldParts)) (onCondition (second.flatMap fieldParts)) := by
  rcases alike with ⟨pairs, front, back, generated, takes⟩
  refine ⟨pairs, ?_, ?_, generated, fun rename admits respects => ?_⟩
  · rw [fromAliases_onCondition]
    exact front
  · rw [fromAliases_onCondition]
    exact back
  · rw [takes rename admits respects, Expr.renamed_onCondition]
    rfl

/-- Sparing names that are not generated makes no difference to generated aliases. -/
theorem Alike.sparing {α : Type} {aliases : α → List String}
    {renamed : (String → String) → α → α} {admissible inner : (String → String) → Prop}
    {spared : List String} {first second : α}
    (alike : Alike aliases renamed inner first second)
    (written : ∀ name ∈ spared, ¬ IsGeneratedAlias name)
    (admits : ∀ rename, admissible rename → inner (SqlScribe.sparing spared rename)) :
    Alike aliases (fun rename => renamed (SqlScribe.sparing spared rename)) admissible
      first second := by
  rcases alike with ⟨pairs, front, back, generated, takes⟩
  refine ⟨pairs, front, back, generated, fun rename admissible respects => ?_⟩
  refine takes _ (admits rename admissible) fun pair member => ?_
  rw [sparing_of_not_mem fun clash => written _ clash (generated pair member)]
  exact respects pair member

/-- The column of a join is renamed, the key of the joined table is not. -/
theorem renamed_of_joinVia {earlier : List String} {table aliasName path : String}
    {targetKey : Option String} {first second : Join} {rename : String → String}
    (one : joinVia config names earlier ⟨table, some aliasName⟩ path targetKey = .ok first)
    (two : joinVia config others earlier ⟨table, some aliasName⟩ path targetKey = .ok second)
    (owners : rename names.primary = others.primary)
    (joined : rename aliasName = aliasName)
    (written : ∀ qualifier, QualifiedBy path qualifier → rename qualifier = qualifier) :
    second.condition = first.condition.renamed rename := by
  rcases joinVia_eq_ok.1 one with ⟨parsed, read, -, -, rfl⟩
  rcases joinVia_eq_ok.1 two with ⟨_, reread, -, -, rfl⟩
  cases read.symm.trans reread
  have left : rename (parsed.qualifier.getD names.primary) =
      parsed.qualifier.getD others.primary := by
    cases qualified : parsed.qualifier with
    | none => exact owners
    | some qualifier => exact written qualifier ⟨parsed, read, qualified⟩
  simp [Expr.renamed, ColumnRef.renamed, TableRef.reference, left, joined]

theorem JoinSpec.alike_of_yields {earlier : List String} {join : JoinSpec} {first second : Join}
    (parallel : ∀ entry ∈ join.entries, ∀ constraint ∈ entry.constraints,
      constraint.Parallel config fixed)
    (renamable : ∀ entry ∈ join.entries, ∀ constraint ∈ entry.constraints,
      constraint.Renamable config fixed entry.field)
    (via : ∀ path, join.via = some path → ∀ qualifier, QualifiedBy path qualifier →
      fixed qualifier)
    (written : ∀ name ∈ earlier ++ [join.aliasName], ¬ IsGeneratedAlias name)
    (visible : names.primary ∉ earlier ++ [join.aliasName])
    (one : Yields (joinNode config depth names earlier join) before first after)
    (two : Yields (joinNode config level others earlier join) start second finish) :
    Alike Expr.fromAliases
      (fun rename => Expr.renamed (sparing (earlier ++ [join.aliasName]) rename))
      (Admits fixed names.primary others.primary) first.condition second.condition := by
  -- The join says itself which of the two forms it has, so both compilations see the same one.
  rcases yields_joinNode.1 one with
    ⟨-, ⟨path, given, -, node, -⟩ | ⟨groups, free, -, -, rfl, steps⟩⟩
  · rcases yields_joinNode.1 two with ⟨-, ⟨_, again, -, nodeToo, -⟩ | ⟨_, free, -⟩⟩
    · cases given.symm.trans again
      refine ⟨[], ?_, ?_, by simp, fun rename admits _ => ?_⟩
      · rcases joinVia_eq_ok.1 node with ⟨_, -, -, -, rfl⟩
        rfl
      · rcases joinVia_eq_ok.1 nodeToo with ⟨_, -, -, -, rfl⟩
        rfl
      · have inner := admits.sparing visible
        exact renamed_of_joinVia node nodeToo inner.owner (sparing_of_mem (by simp))
          fun qualifier qualified => inner.fixed qualifier (via path given qualifier qualified)
    · rw [given] at free
      cases free
  · rcases yields_joinNode.1 two with ⟨-, ⟨_, given, -⟩ | ⟨more, -, -, -, rfl, stepsToo⟩⟩
    · rw [given] at free
      cases free
    · refine .sparing (Alike.onCondition
        (alike_of_conditions parallel renamable steps stepsToo)) written ?_
      exact fun rename admits => admits.sparing_self (by simp)

theorem JoinSpec.alike_of_joins {earlier : List String} {joins : List JoinSpec}
    {first second : List Join}
    (parallel : ∀ join ∈ joins, ∀ entry ∈ join.entries, ∀ constraint ∈ entry.constraints,
      constraint.Parallel config fixed)
    (renamable : ∀ join ∈ joins, ∀ entry ∈ join.entries, ∀ constraint ∈ entry.constraints,
      constraint.Renamable config fixed entry.field)
    (via : ∀ join ∈ joins, ∀ path, join.via = some path → ∀ qualifier,
      QualifiedBy path qualifier → fixed qualifier)
    (written : ∀ name ∈ earlier ++ joins.map aliasName, ¬ IsGeneratedAlias name)
    (visible : names.primary ∉ earlier ++ joins.map aliasName)
    (one : JoinSteps config depth names (withEarlier earlier joins) before first after)
    (two : JoinSteps config level others (withEarlier earlier joins) start second finish) :
    Alike Join.allFromAliases (fun rename => Join.allRenamed rename earlier)
      (Admits fixed names.primary others.primary) first second := by
  -- A join sees the aliases of those before it, so these grow along with the two states.
  induction joins generalizing earlier before first start second with
  | nil =>
      rcases steps_nil.1 one with ⟨rfl, -⟩
      rcases steps_nil.1 two with ⟨rfl, -⟩
      exact ⟨[], rfl, rfl, by simp, fun _ _ _ => rfl⟩
  | cons join rest step =>
      rcases steps_cons.1 one with ⟨⟨table, condition⟩, _, nodes, head, tail, rfl⟩
      rcases steps_cons.1 two with ⟨⟨another, conditionToo⟩, _, more, headToo, tailToo, rfl⟩
      obtain rfl : table = ⟨join.table, some join.aliasName⟩ := table_of_yields head
      obtain rfl : another = ⟨join.table, some join.aliasName⟩ := table_of_yields headToo
      rw [List.map_cons, ← List.singleton_append, ← List.append_assoc] at written visible
      simp only [List.forall_mem_cons] at parallel renamable via
      rcases alike_of_yields parallel.1 renamable.1 via.1
        (fun name member => written name (List.mem_append_left _ member))
        (fun member => visible (List.mem_append_left _ member)) head headToo with
        ⟨pairs, front, back, generated, takes⟩
      rcases step parallel.2 renamable.2 via.2 written visible tail tailToo with
        ⟨otherPairs, frontRest, backRest, generatedRest, takesRest⟩
      refine ⟨pairs ++ otherPairs, ?_, ?_, ?_, fun rename admits respects => ?_⟩
      · rw [List.map_append, front, frontRest, Join.allFromAliases]
      · rw [List.map_append, back, backRest, Join.allFromAliases]
      · exact List.forall_mem_append.2 ⟨generated, generatedRest⟩
      · rw [List.forall_mem_append] at respects
        have condition := takes rename admits respects.1
        have others := takesRest rename admits respects.2
        simp only at condition others
        simp only [Join.allRenamed, others, condition]
        rfl

/-! ## Queries -/

/-- What becomes of a query once its own table is known. -/
def Query.Body (config : Config) (depth : Nat) (query : Query) (enclosing : List String)
    (select : Select) (named after : CompileState) : Prop :=
  ∃ joined groups,
    JoinSteps config depth (query.namesIn enclosing select)
      (JoinSpec.withEarlier [] query.joins) named select.joins joined ∧
    query.frame.projection (query.namesIn enclosing select) = .ok select.projection ∧
    ConditionSteps config depth (query.namesIn enclosing select) select.source.reference
      query.conditions.entries joined groups after ∧
    select.condition = whereClause (groups.flatMap fieldParts) ∧
    query.frame.order (query.namesIn enclosing select) = .ok select.order ∧
    select.limit = ⟨query.skip, query.limit⟩

theorem Query.exists_body {query : Query} {enclosing : List String} {select : Select}
    (yields : Yields (query.compileAt config depth enclosing) before select after) :
    ∃ named filtered, Yields (query.frame.source config depth) before select.source named ∧
      query.Body config depth enclosing select named filtered := by
  rcases yields_compileAt.1 yields with ⟨named, joined, filtered, groups, sourced, joining,
    projected, filtering, condition, ordered, limited, -⟩
  exact ⟨named, filtered, sourced, joined, groups, joining, projected, filtering, condition,
    ordered, limited⟩

/-- Apart from their tables, the SELECTs of one query are alike. -/
theorem Query.Body.alike {query : Query} {enclosing around : List String} {first second : Select}
    (parallel : ∀ constraint ∈ query.constraints, constraint.Parallel config fixed)
    (renamable : query.Renamable config fixed)
    (visible : first.source.reference ∉ query.joins.map JoinSpec.aliasName)
    (one : query.Body config depth enclosing first before after)
    (two : query.Body config level around second start finish) :
    ∃ pairs : List (String × String),
      pairs.map Prod.fst = first.innerAliases ∧ pairs.map Prod.snd = second.innerAliases ∧
        (∀ pair ∈ pairs, IsGeneratedAlias pair.1) ∧
        ∀ rename, Admits fixed first.source.reference second.source.reference rename →
          (∀ pair ∈ pairs, rename pair.1 = pair.2) →
          second = { first.renamed rename with source := second.source } := by
  rcases one with ⟨_, groups, joining, projected, filtering, condition, ordered, limited⟩
  rcases two with ⟨_, more, joiningToo, projectedToo, filteringToo, conditionToo, orderedToo,
    limitedToo⟩
  have joins := JoinSpec.alike_of_joins
    (fun join present entry member constraint inside =>
      parallel constraint (mem_constraints_of_join present member inside))
    (fun join present entry member constraint => renamable.joinCondition present member)
    (fun join present path given qualifier => renamable.qualifiers.via present given)
    renamable.aliases visible joining joiningToo
  have conditions := alike_of_conditions
    (fun entry member constraint inside =>
      parallel constraint (mem_constraints_of_condition member inside))
    (fun entry member constraint => renamable.condition member) filtering filteringToo
  have references := JoinSpec.references_of_steps joining
  rcases joins with ⟨joinPairs, joinFront, joinBack, joinGenerated, joinTakes⟩
  rcases conditions with ⟨pairs, front, back, generated, takes⟩
  refine ⟨joinPairs ++ pairs, ?_, ?_, ?_, ?_⟩
  · rw [List.map_append, joinFront, front, Select.innerAliases, condition,
      clauseFromAliases_whereClause]
    rfl
  · rw [List.map_append, joinBack, back, Select.innerAliases, conditionToo,
      clauseFromAliases_whereClause]
    rfl
  · exact List.forall_mem_append.2 ⟨joinGenerated, generated⟩
  · intro rename admits respects
    rw [List.forall_mem_append] at respects
    have inner : Admits fixed first.source.reference second.source.reference
        (sparing (Join.references first.joins) rename) :=
      admits.sparing (by rwa [references])
    -- The pairs are of generated aliases, and those are not what joins are called.
    have respected : ∀ pair ∈ pairs,
        sparing (Join.references first.joins) rename pair.1 = pair.2 := by
      intro pair member
      rw [references, sparing_of_not_mem fun clash =>
        renamable.aliases _ clash (generated pair member)]
      exact respects.2 pair member
    have projection := QueryFrame.renamed_projection projected projectedToo inner.owner
      fun item member qualifier qualified =>
        inner.fixed _ (renamable.qualifiers.selection member qualified)
    have order := QueryFrame.renamed_order ordered orderedToo inner.owner
      fun key member qualifier qualified =>
        inner.fixed _ (renamable.qualifiers.sort member qualified)
    have joins := joinTakes rename admits respects.1
    have conditions := takes _ inner respected
    rcases first with ⟨projection₁, source₁, joins₁, condition₁, order₁, limit₁⟩
    rcases second with ⟨projection₂, source₂, joins₂, condition₂, order₂, limit₂⟩
    simp only at projection order joins condition conditionToo limited limitedToo
    rw [Select.renamed, projection, order, joins, limited, limitedToo, condition, conditionToo,
      conditions, Expr.clauseRenamed_whereClause]
    rfl

/-- A table under another alias. -/
theorem TableRef.renamed_of_alias {table own another : String} {rename : String → String}
    (takes : rename own = another) :
    TableRef.renamed rename ⟨table, some own⟩ = ⟨table, some another⟩ := by
  have reference : (⟨table, some own⟩ : TableRef).reference = own := rfl
  rw [TableRef.renamed, reference, takes]
  split
  · rename_i same
    rw [same]
  · rfl

theorem Query.alike_of_yields {query : Query} {enclosing around : List String}
    {first second : Select} (embedded : query.embedded = true)
    (parallel : ∀ constraint ∈ query.constraints, constraint.Parallel config fixed)
    (renamable : query.Renamable config fixed)
    (one : Yields (query.compileAt config depth enclosing) before first after)
    (two : Yields (query.compileAt config level around) start second finish) :
    Alike Select.fromAliases Select.renamed (fun rename => ∀ name, fixed name → rename name = name)
      first second := by
  rcases Query.exists_body one with ⟨named, filtered, sourced, body⟩
  rcases Query.exists_body two with ⟨namedToo, filteredToo, sourcedToo, bodyToo⟩
  rcases Query.source_of_embedded embedded sourced with ⟨own, source, generated⟩
  rcases Query.source_of_embedded embedded sourcedToo with ⟨another, sourceToo, -⟩
  have visible := QueryFrame.reference_not_mem_aliases sourced
  rcases body.alike parallel renamable visible bodyToo with
    ⟨pairs, front, back, generatedPairs, takes⟩
  refine ⟨(own, another) :: pairs, ?_, ?_, ?_, fun rename fixes respects => ?_⟩
  · rw [Select.fromAliases_eq, source, List.map_cons, front]
    rfl
  · rw [Select.fromAliases_eq, sourceToo, List.map_cons, back]
    rfl
  · exact List.forall_mem_cons.2 ⟨generated, generatedPairs⟩
  · rw [List.forall_mem_cons] at respects
    have owner : rename first.source.reference = second.source.reference := by
      rw [source, sourceToo]
      exact respects.1
    rw [takes rename ⟨fixes, owner⟩ respects.2]
    rcases first with ⟨projection, table, joins, condition, order, limit⟩
    obtain rfl : table = ⟨query.table, some own⟩ := source
    rw [Select.renamed, sourceToo, TableRef.renamed_of_alias respects.1]

/-- A constraint that is compiled twice becomes two conditions that are alike. -/
theorem Constraint.parallel (constraint : Constraint) : constraint.Parallel config fixed := by
  induction constraint using Constraint.query_induction config with
  | plain constraint plain =>
      intro depth level names others owner other field before after start finish first second
        renamable one two
      rcases (yields_of_plain plain).1 one with ⟨subject, read, rfl, -⟩
      rcases (yields_of_plain plain).1 two with ⟨again, reread, rfl, -⟩
      refine ⟨[], (fromAliases_of_plain plain read).symm,
        (fromAliases_of_plain plain reread).symm, by simp, fun rename admits _ => ?_⟩
      have subjects := renamed_of_patternSubject read reread admits.owner
        fun path written qualifier qualified =>
          admits.fixed _ (renamable.qualifiers.own path written qualifier qualified)
      rw [subjects, renamed_predicate]
  | inQuery negated subquery inside =>
      intro depth level names others owner other field before after start finish first second
        renamable one two
      rcases yields_inQuery.1 one with ⟨column, select, resolved, compiled, rfl⟩
      rcases yields_inQuery.1 two with ⟨again, selectToo, resolvedToo, compiledToo, rfl⟩
      have inner : (subquery.completed config).Renamable config fixed :=
        ⟨renamable.qualifiers.inner negated subquery rfl,
          renamable.tableNames negated subquery rfl⟩
      rcases Query.alike_of_yields rfl inside inner compiled compiledToo with
        ⟨pairs, front, back, generated, takes⟩
      refine ⟨pairs, front, back, generated, fun rename admits respects => ?_⟩
      have columns := Names.renamed_of_resolveIn resolved resolvedToo admits.owner
        fun qualifier qualified => admits.fixed _
          (renamable.qualifiers.own field (List.mem_singleton_self _) qualifier qualified)
      rw [columns, takes rename admits.fixed respects]
      rfl

end SqlScribe
