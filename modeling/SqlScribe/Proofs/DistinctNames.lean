import Mathlib
import SqlScribe.Proofs.Compile.Success
import SqlScribe.Proofs.EmbeddedSelects

/-!
# Different names for different tables

No two tables of a SELECT have the same name, and no two embedded SELECTs of a
statement have the same alias.  A generated alias is also none of the names
around it, neither of a table that keeps its own name nor of a join that comes
later, so it cannot take a column away from the table that the column was
written for.

The names around a SELECT are all taken when its alias is generated.  This is
the invariant of the compilation, and it is why a query reserves the aliases of
all its joins before it compiles the first one.
-/

namespace SqlScribe

open Compile
open Checked

/-- The tables of a SELECT have different names, and its generated alias is none around it. -/
structure Select.NamesApart (around : List Select) (select : Select) : Prop where
  distinct : (select.source.reference :: Join.references select.joins).Nodup
  /-- An alias of the SELECT's own table is generated and differs from every written name. -/
  fresh : ∀ aliasName ∈ select.source.aliasName,
    IsGeneratedAlias aliasName ∧ aliasName ≠ select.source.name ∧
      ∀ outer ∈ around, aliasName ∉ outer.tableNames

variable {config : Config} {depth : Nat} {names : Names} {owner : String}
variable {before after : CompileState} {around : List Select}

/-- The SELECTs around a condition were given names that are taken. -/
def CompileState.Knows (state : CompileState) (around : List Select) : Prop :=
  ∀ outer ∈ around, outer.tableNames ⊆ state.scope.taken

theorem CompileState.Knows.later (known : before.Knows around) (kept : before.Within after) :
    after.Knows around :=
  fun outer member => List.Subset.trans (known outer member) kept

/-- All SELECTs in a list have their names apart. -/
def AllApart (selects : List EmbeddedSelect) : Prop :=
  ∀ inner ∈ selects, inner.select.NamesApart inner.around

theorem AllApart.append {first second : List EmbeddedSelect}
    (own : AllApart first) (other : AllApart second) : AllApart (first ++ second) :=
  List.forall_mem_append.2 ⟨own, other⟩

/-- What each compilation of a list keeps apart, the list keeps apart; and names stay taken. -/
theorem AllApart.of_steps {α β : Type} {step : α → CompileState → β → CompileState → Prop}
    {inside : β → List EmbeddedSelect} {elements : List α} {values : List β}
    (steps : Steps step elements before values after)
    (each : ∀ element ∈ elements, ∀ start value final, before.Within start →
      step element start value final → AllApart (inside value) ∧ start.Within final) :
    AllApart (values.flatMap inside) ∧ before.Within after := by
  have run : List.Forall₂ (fun _ value => AllApart (inside value)) elements values ∧
      before.Within after := by
    refine steps.pairs before.Within (.refl before) ?_
    intro element member start value final reached taken
    rcases each element member start value final reached taken with ⟨apart, kept⟩
    exact ⟨apart, reached.trans kept⟩
  rcases run with ⟨pairs, kept⟩
  refine ⟨fun inner member => ?_, kept⟩
  rcases List.mem_flatMap.1 member with ⟨value, present, within⟩
  rcases exists_of_forall₂ pairs value present with ⟨_, -, apart⟩
  exact apart inner within

/-- Wherever the constraint is compiled, the SELECTs in its condition have their names apart. -/
def Constraint.KeepsApart (config : Config) (constraint : Constraint) : Prop :=
  ∀ {depth : Nat} {names : Names} {owner field : String} {before : CompileState} {expr : Expr}
    {after : CompileState} {around : List Select},
    before.Knows around →
    Yields (constraintExpr config depth names owner field constraint) before expr after →
    AllApart (expr.embeddedSelects around) ∧ before.Within after

/-! ## One SELECT -/

/-- The name of the table is taken, also if the table gets an alias. -/
theorem QueryFrame.table_taken_of_source {frame : QueryFrame} {source : TableRef}
    (sourced : Yields (frame.source config depth) before source after) :
    source.name = frame.table ∧ frame.table ∈ after.scope.taken := by
  have reserved : frame.table ∈ (frame.reserved before.scope).taken :=
    AliasScope.mem_taken_foldl_reserve.2 (.inr List.mem_cons_self)
  have given := (yields_source.1 sourced).2.2.2
  split at given
  · rcases given with ⟨rfl, rfl⟩
    exact ⟨rfl, List.mem_cons_of_mem _ reserved⟩
  · rcases given with ⟨rfl, rfl⟩
    exact ⟨rfl, reserved⟩

variable {query : Query} {select : Select}

/-- The generated alias of a query is none of its own names and none around it. -/
theorem Query.namesApart_of_source
    (known : before.Knows around)
    (joined : Join.references select.joins = query.joins.map JoinSpec.aliasName)
    (sourced : Yields (query.frame.source config depth) before select.source after) :
    select.NamesApart around where
  distinct := by
    rw [joined]
    have aliases := (yields_source.1 sourced).2.2.1
    exact List.nodup_cons.2
      ⟨QueryFrame.reference_not_mem_aliases sourced, (checkAliases_eq_ok.1 aliases).2⟩
  fresh := by
    intro aliasName given
    cases embedded : query.embedded with
    | false =>
        rw [source_of_standing embedded sourced] at given
        cases given
    | true =>
        rcases source_of_embedded embedded sourced with ⟨_, source, generated⟩
        rcases (QueryFrame.taken_of_source sourced).2.2 embedded with ⟨other, unused⟩
        rw [source] at given other unused ⊢
        cases given
        exact ⟨generated, List.ne_of_not_mem_cons other,
          fun outer member clash => unused (known outer member clash)⟩

/-- Once the source of a query is known, all its names are taken. -/
theorem Query.knows_of_source
    (known : before.Knows around)
    (joined : Join.references select.joins = query.joins.map JoinSpec.aliasName)
    (sourced : Yields (query.frame.source config depth) before select.source after) :
    after.Knows (select :: around) := by
  rcases QueryFrame.taken_of_source sourced with ⟨kept, own, -⟩
  rcases QueryFrame.table_taken_of_source sourced with ⟨table, taken⟩
  refine List.forall_mem_cons.2 ⟨?_, known.later kept⟩
  rw [Select.tableNames, joined, table]
  exact List.cons_subset.2 ⟨taken, own⟩

/-! ## All SELECTs of a query -/

theorem apart_of_conditions {entries : List FieldConstraints} {groups : List (List Expr)}
    (each : ∀ entry ∈ entries, ∀ constraint ∈ entry.constraints, constraint.KeepsApart config)
    (known : before.Knows around)
    (steps : ConditionSteps config depth names owner entries before groups after) :
    AllApart (groups.flatMap fun group => group.flatMap (Expr.embeddedSelects around)) ∧
      before.Within after := by
  refine AllApart.of_steps steps fun entry present start group middle reached fieldSteps => ?_
  refine AllApart.of_steps fieldSteps fun constraint inside _ _ _ further compiled => ?_
  exact each entry present constraint inside (known.later (reached.trans further)) compiled

theorem JoinSpec.apart_of_yields {earlier : List String} {join : JoinSpec} {node : Join}
    (each : ∀ entry ∈ join.entries, ∀ constraint ∈ entry.constraints,
      constraint.KeepsApart config)
    (known : before.Knows around)
    (yields : Yields (joinNode config depth names earlier join) before node after) :
    AllApart (node.condition.embeddedSelects around) ∧ before.Within after := by
  rcases yields_joinNode.1 yields with ⟨-, via | constrained⟩
  · rcases via with ⟨_, -, -, joined, rfl⟩
    rcases joinVia_eq_ok.1 joined with ⟨path, -, -, -, rfl⟩
    exact ⟨List.forall_mem_nil _, .refl _⟩
  · rcases constrained with ⟨groups, -, -, -, rfl, steps⟩
    rw [(Expr.embeddedSelects_gathered around).onCondition]
    exact apart_of_conditions each known steps

/-- The names of a query are taken before its parts are compiled. -/
theorem Query.apart_of_yields {enclosing : List String}
    (each : ∀ constraint ∈ query.constraints, constraint.KeepsApart config)
    (known : before.Knows around)
    (yields : Yields (query.compileAt config depth enclosing) before select after) :
    select.NamesApart around ∧ AllApart (select.embeddedSelects around) := by
  rcases yields_compileAt.1 yields with ⟨named, joined, filtered, groups, sourced, joining, -,
    filtering, condition, -, -, -⟩
  have references := JoinSpec.references_of_steps joining
  have inner : named.Knows (select :: around) := knows_of_source known references sourced
  have joins :
      AllApart (select.joins.flatMap fun node =>
          node.condition.embeddedSelects (select :: around)) ∧
        named.Within joined :=
    AllApart.of_steps joining fun entry member _ _ _ reached compiled =>
      JoinSpec.apart_of_yields (fun _ present constraint inside => each constraint
        (mem_constraints_of_join (JoinSpec.mem_withEarlier member).1 present inside))
        (inner.later reached) compiled
  have conditions := apart_of_conditions (fun _ present constraint inside =>
    each constraint (mem_constraints_of_condition present inside)) (inner.later joins.2) filtering
  refine ⟨namesApart_of_source known references sourced, ?_⟩
  rw [Select.embeddedSelects_eq, condition,
    (Expr.embeddedSelects_gathered (select :: around)).whereClause]
  exact joins.1.append conditions.1

theorem Constraint.keepsApart (constraint : Constraint) : constraint.KeepsApart config := by
  induction constraint using Constraint.query_induction config with
  | plain constraint plain =>
      intro depth names owner field before expr after around known yields
      rcases (yields_of_plain plain).1 yields with ⟨subject, read, rfl, rfl⟩
      rw [predicate_gathered (Expr.embeddedSelects_gathered around) plain read]
      exact ⟨List.forall_mem_nil _, .refl _⟩
  | inQuery negated subquery inside =>
      intro depth names owner field before expr after around known yields
      rcases yields_inQuery.1 yields with ⟨column, select, -, compiled, rfl⟩
      rcases Query.apart_of_yields inside known compiled with ⟨own, inner⟩
      exact ⟨List.forall_mem_cons.2 ⟨own, inner⟩, (Query.takes_fromAliases compiled).kept⟩

/-! ## Statements -/

/-- Outside other queries, the items of a SELECT list are named as their selections say. -/
theorem QueryFrame.outputs_of_projection {frame : QueryFrame} {items : List SelectItem}
    (standing : frame.embedded = false)
    (read : frame.projection names = .ok (.columns items)) :
    items.map SelectItem.output = (frame.selection.map Selection.output).map some ∧
      Selection.Outputs [] frame.selection := by
  refine ⟨?_, (exists_projection_iff.1 ⟨_, read⟩).2 standing⟩
  rcases projection_of_frame read with ⟨-, all⟩ | ⟨_, -, listed, each⟩
  · cases all
  · cases listed
    rw [List.map_map]
    symm
    rw [← List.forall₂_eq_eq_eq, List.forall₂_map_left_iff, List.forall₂_map_right_iff]
    apply each.imp
    rintro selection item ⟨-, named⟩
    rw [if_neg (by simp [standing])] at named
    exact named.2.symm

/-- The aliases of tables differ over a whole statement. -/
theorem Select.nodup_aliases {select : Select} (distinct : select.fromAliases.Nodup) :
    (select.all.filterMap fun inner => inner.source.aliasName).Nodup := by
  rw [← select.filterMap_embeddedSelects []] at distinct
  have inside : ((select.embeddedSelects []).map EmbeddedSelect.select).filterMap
        (fun inner => inner.source.aliasName) =
      (select.embeddedSelects []).filterMap EmbeddedSelect.aliasName? :=
    List.filterMap_map
  rw [Select.all, List.filterMap_cons, inside]
  cases given : select.source.aliasName <;> simpa [given] using distinct

/--
In a compiled statement, the tables of every SELECT have different names, and
generated aliases differ from each other and from all names around them.  The
columns that a query of its own returns have different names as well.
-/
theorem statement_names_distinct {config : Config} {query : Query} {select : Select}
    (compiled : (query.statement config).1 = .ok select) :
    select.NamesApart [] ∧
      (∀ inner ∈ select.embeddedSelects [], inner.select.NamesApart inner.around) ∧
      (select.all.filterMap fun inner => inner.source.aliasName).Nodup ∧
      (query.embedded = false → ∀ items, select.projection = .columns items →
        ∃ outputs : List String, items.map SelectItem.output = outputs.map some ∧ outputs.Nodup ∧
          ∀ output ∈ outputs, HasNameForm output) := by
  rcases Query.statement_eq_ok.1 compiled with ⟨after, yields⟩
  rcases Query.apart_of_yields (fun constraint _ => constraint.keepsApart)
    (List.forall_mem_nil _) yields with ⟨own, inner⟩
  refine ⟨own, inner, Select.nodup_aliases (Query.takes_fromAliases yields).distinct, ?_⟩
  intro standing items listed
  rcases yields_compileAt.1 yields with ⟨_, _, _, _, -, -, projected, -⟩
  rw [listed] at projected
  rcases QueryFrame.outputs_of_projection standing projected with ⟨named, identifiers, distinct⟩
  refine ⟨_, named, distinct, List.forall_mem_map.2 fun selection member => ?_⟩
  exact isIdentifier_iff.1 (identifiers selection member).1

/-- The tasks of admins, without those of a team that has an admin; the team's alias looks generated. -/
def adminTasks : Query :=
  { table := "tasks"
    selection := [.column "title", .joined "owner" "name" none]
    joins :=
      [⟨"users", "owner", none,
          some ⟨[⟨"id", [.inQuery false (.column "admins" "user_id")]⟩]⟩, none⟩,
        ⟨"teams", "sq1_0", some "team_id", none, none⟩]
    conditions := ⟨[⟨"sq1_0.id", [.inQuery true ⟨"members", "team_id",
      ⟨[⟨"user_id", [.inQuery false (.column "admins" "user_id")]⟩]⟩, [], none, none⟩]⟩]⟩ }

/-- The SELECT of `adminTasks`: the first alias at its depth belongs to a join. -/
def adminTasksSelect : Select :=
  let admins (aliasName : String) : Select :=
    ⟨.columns [⟨⟨some aliasName, "user_id"⟩, none⟩], ⟨"admins", some aliasName⟩, [], none, [],
      ⟨none, none⟩⟩
  ⟨.columns [⟨⟨some "tasks", "title"⟩, some "title"⟩, ⟨⟨some "owner", "name"⟩, some "owner_name"⟩],
    ⟨"tasks", none⟩,
    [⟨⟨"users", some "owner"⟩,
        .group (.inSelect (.column ⟨some "owner", "id"⟩) (admins "sq1_1") false)⟩,
      ⟨⟨"teams", some "sq1_0"⟩,
        .compare (.column ⟨some "tasks", "team_id"⟩) .equal (.column ⟨some "sq1_0", "id"⟩)⟩],
    some (.inSelect (.column ⟨some "sq1_0", "id"⟩)
      ⟨.columns [⟨⟨some "sq1_2", "team_id"⟩, none⟩], ⟨"members", some "sq1_2"⟩, [],
        some (.inSelect (.column ⟨some "sq1_2", "user_id"⟩) (admins "sq2_0") false), [],
        ⟨none, none⟩⟩
      true),
    [], ⟨none, none⟩⟩

theorem statement_names_distinct_adminTasks :
    (adminTasks.statement {}).1 = .ok adminTasksSelect ∧ adminTasksSelect.NamesApart [] ∧
      (∀ inner ∈ adminTasksSelect.embeddedSelects [], inner.select.NamesApart inner.around) ∧
      (adminTasksSelect.all.filterMap fun inner => inner.source.aliasName).Nodup ∧
      ∃ outputs : List String,
        [some "title", some "owner_name"] = outputs.map some ∧ outputs.Nodup ∧
          ∀ output ∈ outputs, HasNameForm output := by
  have compiled : (adminTasks.statement {}).1 = .ok adminTasksSelect := by cbv
  rcases statement_names_distinct compiled with ⟨own, inner, aliases, outputs⟩
  exact ⟨compiled, own, inner, aliases, outputs rfl _ rfl⟩

end SqlScribe
