import Mathlib.Data.Multiset.MapFold
import SqlScribe.Proofs.Acceptance
import SqlScribe.Proofs.Compile.Parallel
import SqlScribe.Proofs.Conjunction

/-!
# The order of constraints

Constraints are compiled one after another, and each takes the next aliases from
the supply.  So their order decides which alias goes where, and nothing else:
`constraint_order_immaterial`.

The conditions of two orders belong to each other constraint by constraint.
What is alike in pairs is put together in the order of the second compilation,
and the first one has the same conditions in another order.
-/

namespace SqlScribe

open Compile
open Checked

/-! ## Maps in another order -/

/-- The second map has the fields of the first one and their constraints, in any order. -/
def ConstraintMap.Reordered (first second : ConstraintMap) : Prop :=
  ∃ middle : List FieldConstraints, first.entries.Perm middle ∧
    List.Forall₂
      (fun entry other => entry.field = other.field ∧ entry.constraints.Perm other.constraints)
      middle second.entries

namespace ConstraintMap.Reordered

variable {first second : ConstraintMap}

theorem symm (reordered : first.Reordered second) : second.Reordered first := by
  rcases reordered with ⟨middle, moved, each⟩
  rcases List.perm_comp_forall₂ moved each with ⟨other, pairs, movedBack⟩
  refine ⟨other, movedBack.symm, pairs.flip.imp ?_⟩
  rintro entry back ⟨field, constraints⟩
  exact ⟨field.symm, constraints.symm⟩

/-- Each constraint is in both maps, on the same field. -/
theorem exists_entry (reordered : first.Reordered second)
    {entry : FieldConstraints} {constraint : Constraint}
    (present : entry ∈ second.entries) (inside : constraint ∈ entry.constraints) :
    ∃ other ∈ first.entries, other.field = entry.field ∧ constraint ∈ other.constraints := by
  rcases reordered with ⟨middle, moved, each⟩
  rcases exists_of_forall₂ each entry present with ⟨other, member, field, constraints⟩
  exact ⟨other, moved.mem_iff.2 member, field, constraints.mem_iff.2 inside⟩

end ConstraintMap.Reordered

section Queries

variable {config : Config} {depth : Nat} {enclosing : List String} {property : String → Prop}
variable {query : Query} {conditions : ConstraintMap}

/-- Another order of constraints changes neither what is written in a query nor what it holds. -/
theorem Query.Qualifiers.reordered (reordered : query.conditions.Reordered conditions)
    (qualifiers : query.Qualifiers config property) :
    Query.Qualifiers config property { query with conditions } := by
  refine .of_inner (fun path written qualifier qualified => ?_) fun negated subquery member => ?_
  · refine Query.Throughout.own qualifiers path ?_ qualifier qualified
    simp only [Query.paths, List.mem_append] at written ⊢
    refine written.imp_left (Or.imp_right fun inside => ?_)
    rcases List.mem_flatMap.1 inside with ⟨entry, present, inEntry⟩
    rcases List.mem_flatMap.1 inEntry with ⟨constraint, within, named⟩
    rcases reordered.exists_entry present within with ⟨other, known, field, member⟩
    exact List.mem_flatMap.2 ⟨other, known, List.mem_flatMap.2 ⟨constraint, member, field ▸ named⟩⟩
  · have present : .inQuery negated subquery ∈ query.constraints := by
      refine List.mem_append.2 ((List.mem_append.1 member).imp_left fun own => ?_)
      rcases List.mem_flatMap.1 own with ⟨entry, present, within⟩
      rcases reordered.exists_entry present within with ⟨other, known, -, inside⟩
      exact List.mem_flatMap.2 ⟨other, known, inside⟩
    exact Query.Throughout.inner qualifiers present

theorem Query.Accepted.reordered (reordered : query.conditions.Reordered conditions)
    (accepted : query.Accepted config depth enclosing) :
    Query.Accepted config depth enclosing { query with conditions } := by
  rcases accepted with ⟨shallow, table, aliases, distinct, other, joins, selection, outputs,
    constraints, sort⟩
  refine .query shallow table aliases distinct other joins selection outputs ?_ sort
  intro entry present constraint inside
  rcases reordered.exists_entry present inside with ⟨other, known, field, member⟩
  exact field ▸ constraints other known constraint member

end Queries

/-! ## Conjuncts -/

/-- The conditions that a clause is the conjunction of. -/
def Expr.conjuncts : Option Expr → List Expr
  | none => []
  | some (.and parts) => parts
  | some single => [single]

/-- For each field the predicates on it, in no order. -/
def Select.fieldConjuncts (select : Select) : Multiset (Multiset Expr) :=
  .ofList ((Expr.conjuncts select.condition).map fun conjunct => .ofList conjunct.atoms)

/-- The conditions of the fields, in no order. -/
def unorderedGroups (groups : List (List Expr)) : Multiset (Multiset Expr) :=
  .ofList (groups.map Multiset.ofList)

theorem unorderedGroups_renamed {rename : String → String} {groups : List (List Expr)} :
    unorderedGroups (groupsRenamed rename groups) =
      (unorderedGroups groups).map (Multiset.map (Expr.renamed rename)) := by
  rw [unorderedGroups, groupsRenamed, unorderedGroups, Multiset.map_coe, List.map_map, List.map_map]
  rfl

theorem unorderedGroups_eq {first middle second : List (List Expr)} (moved : first.Perm middle)
    (each : List.Forall₂ List.Perm middle second) :
    unorderedGroups first = unorderedGroups second := by
  have pairs : List.Forall₂ (· = ·) (middle.map Multiset.ofList) (second.map Multiset.ofList) := by
    rw [List.forall₂_map_left_iff, List.forall₂_map_right_iff]
    exact each.imp fun _ _ perm => Multiset.coe_eq_coe.2 perm
  rw [List.forall₂_eq_eq_eq] at pairs
  rw [unorderedGroups, unorderedGroups, ← pairs]
  exact Multiset.coe_eq_coe.2 (moved.map Multiset.ofList)

mutual

/-- A predicate is not a conjunction. -/
theorem Expr.ne_and_of_mem_atoms :
    ∀ condition : Expr, ∀ atom ∈ condition.atoms, ∀ parts, atom ≠ .and parts
  | .and inner => by
      rw [Expr.atoms]
      exact Expr.ne_and_of_mem_allAtoms inner
  | .group inner => by
      rw [Expr.atoms]
      exact Expr.ne_and_of_mem_atoms inner
  | .column _ | .concat _ | .literal _ | .compare _ _ _ | .like _ _ | .nullCheck _ _
  | .inList _ _ _ | .inSelect _ _ _ | .truth => by simp [Expr.atoms]

theorem Expr.ne_and_of_mem_allAtoms :
    ∀ conditions : List Expr, ∀ atom ∈ Expr.allAtoms conditions, ∀ parts, atom ≠ .and parts
  | [] => by simp [Expr.allAtoms]
  | condition :: rest => by
      rw [Expr.allAtoms, List.forall_mem_append]
      exact ⟨Expr.ne_and_of_mem_atoms condition, Expr.ne_and_of_mem_allAtoms rest⟩

end

section Conjuncts

variable {parts : List Expr} {groups : List (List Expr)}

theorem Expr.conjuncts_whereClause (each : ∀ part ∈ parts, ∀ inner, part ≠ .and inner) :
    Expr.conjuncts (whereClause parts) = parts := by
  rcases parts with _ | ⟨first, _ | ⟨second, rest⟩⟩
  · rfl
  · have other := each first List.mem_cons_self
    cases first with
    | and inner => exact absurd rfl (other inner)
    | _ => rfl
  · rfl

theorem ne_and_of_mem_fieldParts (each : ∀ part ∈ parts, part.IsAtom) :
    ∀ part ∈ fieldParts parts, ∀ inner, part ≠ .and inner := by
  unfold fieldParts
  split
  · simp
  · rename_i only
    have predicate := each only List.mem_cons_self
    rw [List.forall_mem_singleton]
    refine Expr.ne_and_of_mem_atoms only only ?_
    rw [predicate]
    exact List.mem_singleton_self only
  · simp

/-- A field with conditions contributes one conjunct, which holds the predicates on it. -/
theorem map_atoms_fieldParts (each : ∀ part ∈ parts, part.IsAtom) :
    (fieldParts parts).map Expr.atoms = if parts = [] then [] else [parts] := by
  rcases parts with _ | ⟨first, _ | ⟨second, rest⟩⟩
  · rfl
  · have predicate := each first List.mem_cons_self
    rw [Expr.IsAtom] at predicate
    simp [fieldParts, predicate]
  · have flat := atoms_of_predicates each
    simp [fieldParts, Expr.atoms, Expr.allAtoms_eq_flatMap, flat]

/-- The conjuncts of a clause are the conditions of the fields that have any. -/
theorem fieldConjuncts_of_groups {select : Select}
    (condition : select.condition = whereClause (groups.flatMap fieldParts))
    (predicates : ∀ group ∈ groups, ∀ part ∈ group, part.IsAtom) :
    select.fieldConjuncts = (unorderedGroups groups).filter fun group => group.card ≠ 0 := by
  have separate : ∀ part ∈ groups.flatMap fieldParts, ∀ inner, part ≠ .and inner := by
    intro part member
    rcases List.mem_flatMap.1 member with ⟨group, present, inside⟩
    exact ne_and_of_mem_fieldParts (predicates group present) part inside
  rw [Select.fieldConjuncts, condition, Expr.conjuncts_whereClause separate, unorderedGroups,
    Multiset.filter_coe]
  congr 1
  clear separate condition
  induction groups with
  | nil => rfl
  | cons group rest step =>
      rw [List.forall_mem_cons] at predicates
      have own : (fieldParts group).map (fun conjunct => Multiset.ofList conjunct.atoms) =
          (if group = [] then [] else [group]).map Multiset.ofList := by
        rw [← map_atoms_fieldParts predicates.1, List.map_map]
        rfl
      rw [List.flatMap_cons, List.map_append, step predicates.2, own, List.map_cons]
      cases group <;> simp

end Conjuncts

/-! ## Two orders -/

section Orders

variable {config : Config} {depth level : Nat} {names others : Names} {owner other : String}
variable {before after start finish : CompileState} {fixed : String → Prop}

/-- The condition of a constraint is a predicate, whatever its tables are called. -/
theorem Constraint.isAtom_of_yields {constraint : Constraint} {field : String} {expr : Expr}
    (yields : Yields (constraintExpr config depth names owner field constraint) before expr after) :
    expr.IsAtom ∧ ∀ rename, (expr.renamed rename).IsAtom := by
  rcases constraint.plain_or_inQuery with plain | ⟨negated, subquery, rfl⟩
  · rcases (yields_of_plain plain).1 yields with ⟨subject, -, rfl, -⟩
    have predicate (subject : Expr) : (constraint.predicate subject).IsAtom := by
      cases constraint with
      | inList negated values =>
          show (Expr.inListOrTruth subject values negated).IsAtom
          unfold Expr.inListOrTruth
          split <;> rfl
      | inQuery negated query => exact absurd rfl (plain negated query)
      | _ => rfl
    exact ⟨predicate subject, fun rename => renamed_predicate ▸ predicate _⟩
  · rcases yields_inQuery.1 yields with ⟨column, select, -, -, rfl⟩
    exact ⟨rfl, fun _ => rfl⟩

theorem isAtom_of_conditions {entries : List FieldConstraints} {groups : List (List Expr)}
    (steps : ConditionSteps config depth names owner entries before groups after) :
    ∀ group ∈ groups, ∀ part ∈ group, part.IsAtom ∧ ∀ rename, (part.renamed rename).IsAtom := by
  intro group present part inside
  rcases exists_of_forall₂ steps.forall₂ group present with ⟨entry, -, _, _, fieldSteps⟩
  rcases exists_of_forall₂ fieldSteps.forall₂ part inside with ⟨constraint, -, _, _, compiled⟩
  exact Constraint.isAtom_of_yields compiled

/-- Compiled in two orders, constraints have the same conditions in another order. -/
theorem alike_of_reordered {first second : ConstraintMap} {groups more : List (List Expr)}
    (reordered : first.Reordered second)
    (renamable : ∀ entry ∈ first.entries, ∀ constraint ∈ entry.constraints,
      constraint.Renamable config fixed entry.field)
    (one : ConditionSteps config depth names owner first.entries before groups after)
    (two : ConditionSteps config level others other second.entries start more finish) :
    ∃ middle reached, groups.Perm middle ∧ List.Forall₂ List.Perm middle reached ∧
      Alike groupAliases groupsRenamed (Admits fixed owner other) reached more := by
  rcases reordered with ⟨entries, moved, each⟩
  rcases List.perm_comp_forall₂ moved.symm one.forall₂ with ⟨middle, compiled, movedGroups⟩
  -- The fields of the second map, each with its conditions in the first compilation.
  have fields : List.Forall₂
      (fun group another => ∃ inner, group.Perm inner ∧
        List.Forall₂ (Alike Expr.fromAliases Expr.renamed (Admits fixed owner other)) inner another)
      middle more := by
    refine forall₂_of_common compiled (forall₂_trans each two.forall₂) ?_
    rintro entry member group another ⟨_, _, run⟩ ⟨back, ⟨field, constraints⟩, _, _, runToo⟩
    rcases List.perm_comp_forall₂ constraints.symm run.forall₂ with ⟨inner, each, movedGroup⟩
    refine ⟨inner, movedGroup.symm, forall₂_of_common each runToo.forall₂ ?_⟩
    rintro constraint inside expr more ⟨_, _, yields⟩ ⟨_, _, yieldsToo⟩
    rw [← field] at yieldsToo
    exact constraint.parallel
      (renamable entry (moved.mem_iff.2 member) constraint (constraints.mem_iff.2 inside))
      yields yieldsToo
  rcases exists_forall₂_between fields with ⟨reached, fields, conditions⟩
  exact ⟨middle, reached, movedGroups.symm, fields,
    .of_forall₂ (conditions.imp fun _ _ alike => .of_forall₂ alike)⟩

theorem groupAliases_perm {groups middle reached : List (List Expr)}
    (moved : groups.Perm middle) (each : List.Forall₂ List.Perm middle reached) :
    (groupAliases reached).Perm (groupAliases groups) := by
  refine List.Perm.trans ?_ (moved.flatMap_right _).symm
  clear moved
  induction each with
  | nil => exact .nil
  | cons head _ step => exact (head.symm.flatMap_right _).append step

variable {query : Query} {conditions : ConstraintMap} {enclosing : List String}
variable {first second : Select}

/-- What does not come from the constraints of a query does not depend on them. -/
theorem Query.common_of_yields
    (one : Yields (query.compileAt config depth enclosing) before first after)
    (two : Yields (Query.compileAt config depth enclosing { query with conditions }) before
      second finish) :
    second.source = first.source ∧ second.joins = first.joins ∧
      second.projection = first.projection ∧ second.order = first.order ∧
      second.limit = first.limit := by
  rcases Query.exists_body one with ⟨named, _, sourced, _, _, joining, projected, -, -, ordered,
    limited⟩
  rcases Query.exists_body two with ⟨namedToo, _, sourcedToo, _, _, joiningToo, projectedToo, -, -,
    orderedToo, limitedToo⟩
  rcases sourced.unique sourcedToo with ⟨source, rfl⟩
  have names : Query.namesIn { query with conditions } enclosing second =
      query.namesIn enclosing first := by
    rw [namesIn, namesIn, source]
  rw [names] at joiningToo projectedToo orderedToo
  have joins := (yields_joinNodes.2 joining).unique (yields_joinNodes.2 joiningToo)
  refine ⟨source, joins.1, ?_, ?_, limitedToo.trans limited.symm⟩
  · exact Except.ok.inj (projectedToo.symm.trans projected)
  · exact Except.ok.inj (orderedToo.symm.trans ordered)

/-- The conditions of two orders are the same up to a renaming of generated aliases. -/
theorem Query.exists_renaming_of_reordered
    (reordered : query.conditions.Reordered conditions)
    (renamable : query.Renamable config (¬ IsGeneratedAlias ·))
    (one : Yields (query.compileAt config depth enclosing) before first after)
    (two : Yields (Query.compileAt config depth enclosing { query with conditions }) before
      second finish) :
    ∃ rename, Renaming rename first.fromAliases ∧
      second.fieldConjuncts = (first.renamed rename).fieldConjuncts := by
  have own := Query.takes_fromAliases one
  have other := Query.takes_fromAliases two
  rcases Query.common_of_yields one two with ⟨source, joins, -, -, -⟩
  rcases Query.exists_body one with ⟨_, _, sourced, _, groups, joining, -, filtering, condition, -⟩
  rcases Query.exists_body two with ⟨_, _, -, _, more, -, -, filteringToo, conditionToo, -⟩
  rcases alike_of_reordered reordered
    (fun entry present constraint => renamable.condition present) filtering filteringToo with
    ⟨middle, reached, moved, fields, alike⟩
  have references := JoinSpec.references_of_steps joining
  have visible : first.source.reference ∉ Join.references first.joins :=
    references ▸ QueryFrame.reference_not_mem_aliases sourced
  have written : ∀ name ∈ Join.references first.joins, ¬ IsGeneratedAlias name :=
    references ▸ renamable.aliases
  have inside : Alike groupAliases
      (fun rename => groupsRenamed (sparing (Join.references first.joins) rename))
      (Admits (¬ IsGeneratedAlias ·) first.source.reference second.source.reference)
      reached more :=
    alike.sparing written fun _ admits => admits.sparing visible
  rcases inside with ⟨pairs, front, back, -, takes⟩
  -- What the joins and the table are called stays; the aliases in the conditions change.
  let kept := first.source.aliasName.toList ++ Join.allFromAliases first.joins
  let all := kept.map (fun name => (name, name)) ++ pairs
  have domain : (all.map Prod.fst).Perm first.fromAliases := by
    have inner : first.fromAliases = kept ++ groupAliases groups := by
      rw [Select.fromAliases_eq, Select.innerAliases, condition, clauseFromAliases_whereClause,
        ← List.append_assoc]
      rfl
    rw [inner, List.map_append, List.map_map, front]
    exact .append (.of_eq (List.map_id kept)) (groupAliases_perm moved fields)
  have image : all.map Prod.snd = second.fromAliases := by
    rw [Select.fromAliases_eq, Select.innerAliases, conditionToo, clauseFromAliases_whereClause,
      ← List.append_assoc, source, joins, List.map_append, List.map_map, back]
    exact congrArg (· ++ groupAliases more) (List.map_id kept)
  have generatedAll : ∀ pair ∈ all, IsGeneratedAlias pair.2 := fun pair member =>
    other.generated _ (image ▸ List.mem_map_of_mem member)
  rcases Renaming.exists_of_pairs (domain.nodup_iff.2 own.distinct) (image ▸ other.distinct)
    generatedAll with ⟨rename, oneToOne, respects⟩
  have oneToOne : Renaming rename first.fromAliases := oneToOne.congr fun _ => domain.mem_iff
  rw [List.forall_mem_append] at respects
  have fixes : ∀ name, ¬ IsGeneratedAlias name → rename name = name := fun name plain =>
    oneToOne.fixed name fun member => plain (own.generated name member)
  have owner : rename first.source.reference = second.source.reference := by
    rw [source]
    cases embedded : query.embedded with
    | false =>
        rw [Query.source_of_standing embedded sourced]
        exact fixes query.table (renamable.tableNames.own _ List.mem_cons_self)
    | true =>
        rcases Query.source_of_embedded embedded sourced with ⟨aliasName, given, -⟩
        have stays : aliasName ∈ kept := by simp [kept, given]
        rw [given]
        exact respects.1 (aliasName, aliasName) (List.mem_map_of_mem stays)
  have conditions := takes rename ⟨fixes, owner⟩ respects.2
  have clause : (first.renamed rename).condition =
      whereClause ((groupsRenamed (sparing (Join.references first.joins) rename) groups).flatMap
        fieldParts) := by
    rcases first with ⟨projection, table, nodes, clause, order, limit⟩
    obtain rfl : clause = whereClause (groups.flatMap fieldParts) := condition
    exact Expr.clauseRenamed_whereClause
  have predicates : ∀ group ∈ groupsRenamed (sparing (Join.references first.joins) rename) groups,
      ∀ part ∈ group, part.IsAtom := by
    simp only [groupsRenamed, List.forall_mem_map]
    exact fun group present part within =>
      (isAtom_of_conditions filtering group present part within).2 _
  refine ⟨rename, oneToOne, ?_⟩
  rw [fieldConjuncts_of_groups conditionToo fun group present part within =>
      (isAtom_of_conditions filteringToo group present part within).1,
    fieldConjuncts_of_groups clause predicates, conditions, unorderedGroups_renamed,
    unorderedGroups_renamed, unorderedGroups_eq moved fields]

end Orders

/-! ## Statements -/

/--
A query has a statement if and only if it has one with its constraints in
another order.  The two have the same tables, columns, order and limit, and the
same conjuncts for each field up to a renaming of generated aliases.
-/
theorem constraint_order_immaterial
    {config : Config} {query : Query} {conditions : ConstraintMap}
    (reordered : query.conditions.Reordered conditions)
    (qualifiers : query.Qualifiers config (¬ IsGeneratedAlias ·))
    (tableNames : query.TableNames config (¬ IsGeneratedAlias ·)) :
    ((∃ select, (query.statement config).1 = .ok select) ↔
        ∃ select, (Query.statement config { query with conditions }).1 = .ok select) ∧
      ∀ first second, (query.statement config).1 = .ok first →
        (Query.statement config { query with conditions }).1 = .ok second →
        second.source = first.source ∧ second.joins = first.joins ∧
          second.projection = first.projection ∧ second.order = first.order ∧
          second.limit = first.limit ∧
          ∃ rename, Renaming rename first.fromAliases ∧
            second.fieldConjuncts = (first.renamed rename).fieldConjuncts := by
  refine ⟨?_, fun first second compiled compiledToo => ?_⟩
  · rw [Query.statement_succeeds_iff qualifiers,
      Query.statement_succeeds_iff (qualifiers.reordered reordered)]
    exact ⟨.reordered reordered, .reordered reordered.symm⟩
  · rcases Query.statement_eq_ok.1 compiled with ⟨_, yields⟩
    rcases Query.statement_eq_ok.1 compiledToo with ⟨_, yieldsToo⟩
    rcases Query.common_of_yields yields yieldsToo with ⟨source, joins, projection, order, limit⟩
    exact ⟨source, joins, projection, order, limit,
      Query.exists_renaming_of_reordered reordered ⟨qualifiers, tableNames⟩ yields yieldsToo⟩

/-- Users of some team who have logged in. -/
def visitors : Query :=
  { table := "users"
    conditions := ⟨[⟨"team_id", [.inQuery false (.column "teams" "id")]⟩,
      ⟨"id", [.present true, .inQuery false (.column "logins" "user_id")]⟩]⟩ }

/-- The conditions of `visitors` in another order, in which the inner queries swap aliases. -/
def shuffledVisitors : ConstraintMap :=
  ⟨[⟨"id", [.inQuery false (.column "logins" "user_id"), .present true]⟩,
    ⟨"team_id", [.inQuery false (.column "teams" "id")]⟩]⟩

/-- A query for one column of another table, in a condition on a column of `users`. -/
def visitorsInner (field table column aliasName : String) : Expr :=
  .inSelect (.column ⟨some "users", field⟩)
    ⟨.columns [⟨⟨some aliasName, column⟩, none⟩], ⟨table, some aliasName⟩, [], none, [],
      ⟨none, none⟩⟩
    false

def visitorsSelect : Select :=
  ⟨.all, ⟨"users", none⟩, [],
    some (.and
      [visitorsInner "team_id" "teams" "id" "sq1_0",
        .group (.and
          [.nullCheck (.column ⟨some "users", "id"⟩) false,
            visitorsInner "id" "logins" "user_id" "sq1_1"])]),
    [], ⟨none, none⟩⟩

def shuffledVisitorsSelect : Select :=
  ⟨.all, ⟨"users", none⟩, [],
    some (.and
      [.group (.and
          [visitorsInner "id" "logins" "user_id" "sq1_0",
            .nullCheck (.column ⟨some "users", "id"⟩) false]),
        visitorsInner "team_id" "teams" "id" "sq1_1"]),
    [], ⟨none, none⟩⟩

theorem visitors_throughout {holds : Query → Prop} (own : holds visitors)
    (teams : holds (Subquery.completed {} (.column "teams" "id")))
    (logins : holds (Subquery.completed {} (.column "logins" "user_id"))) :
    visitors.Throughout {} holds := by
  have alone {table column : String} (own : holds (Subquery.completed {} (.column table column))) :
      (Subquery.completed {} (.column table column)).Throughout {} holds := by
    refine .of_inner own fun negated subquery member => ?_
    rw [Subquery.constraints_completed] at member
    cases member
  refine .of_inner own fun negated subquery member => ?_
  have inside : subquery = .column "teams" "id" ∨ subquery = .column "logins" "user_id" := by
    have listed : (negated = false ∧ subquery = .column "teams" "id") ∨
        negated = false ∧ subquery = .column "logins" "user_id" := by
      simpa [visitors, Query.constraints] using member
    exact listed.imp And.right And.right
  rcases inside with rfl | rfl
  · exact alone teams
  · exact alone logins

theorem constraint_order_immaterial_visitors :
    visitors.conditions.Reordered shuffledVisitors ∧
      (visitors.statement {}).1 = .ok visitorsSelect ∧
      (Query.statement {} { visitors with conditions := shuffledVisitors }).1 =
        .ok shuffledVisitorsSelect ∧
      ∃ rename, Renaming rename ["sq1_0", "sq1_1"] ∧
        shuffledVisitorsSelect.fieldConjuncts = (visitorsSelect.renamed rename).fieldConjuncts := by
  have reordered : visitors.conditions.Reordered shuffledVisitors :=
    ⟨_, .swap _ _ _, .cons ⟨rfl, .swap _ _ _⟩ (.cons ⟨rfl, .refl _⟩ .nil)⟩
  have compiled : (visitors.statement {}).1 = .ok visitorsSelect := by cbv
  have compiledToo : (Query.statement {} { visitors with conditions := shuffledVisitors }).1 =
      .ok shuffledVisitorsSelect := by
    cbv
  have qualifiers : visitors.Qualifiers {} (¬ IsGeneratedAlias ·) :=
    visitors_throughout (not_isGeneratedAlias_of_paths (by decide))
      (not_isGeneratedAlias_of_paths (by decide)) (not_isGeneratedAlias_of_paths (by decide))
  have tableNames : visitors.TableNames {} (¬ IsGeneratedAlias ·) := by
    have plain {query : Query} (own : ∀ name ∈ query.tableNames, name.toList.take 2 ≠ ['s', 'q']) :
        ∀ name ∈ query.tableNames, ¬ IsGeneratedAlias name :=
      fun name written => not_isGeneratedAlias (own name written)
    exact visitors_throughout (plain (by decide)) (plain (by decide)) (plain (by decide))
  have immaterial := constraint_order_immaterial reordered qualifiers tableNames
  exact ⟨reordered, compiled, compiledToo, (immaterial.2 _ _ compiled compiledToo).2.2.2.2.2⟩

end SqlScribe
