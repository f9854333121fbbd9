import SqlScribe.Proofs.Nesting

/-!
# The aliases of embedded SELECTs

`Select.fromAliases` lists the aliases that a SELECT and the ones inside it give
to their own tables, in the order in which they were compiled.

`Takes before aliases after` says of two states of the compiler that these
aliases were generated between them.  They are different from each other and
from every name that was taken before.  What one part of a compilation takes
and what the next one takes can be put together, so a whole compilation takes
the aliases of its SELECT.
-/

namespace SqlScribe

open Compile
open Checked

/-! ## Aliases in trees -/

mutual

/-- The aliases of the tables in SELECTs inside the condition. -/
def Expr.fromAliases : Expr → List String
  | .column _ | .concat _ | .literal _ | .truth => []
  | .compare left _ right => left.fromAliases ++ right.fromAliases
  | .like subject _ | .nullCheck subject _ | .inList subject _ _ => subject.fromAliases
  | .inSelect subject query _ => subject.fromAliases ++ query.fromAliases
  | .and parts => Expr.allFromAliases parts
  | .group inner => inner.fromAliases

def Expr.allFromAliases : List Expr → List String
  | [] => []
  | part :: rest => part.fromAliases ++ Expr.allFromAliases rest

def Join.allFromAliases : List Join → List String
  | [] => []
  | ⟨_, condition⟩ :: rest => condition.fromAliases ++ Join.allFromAliases rest

/-- The alias of the table of the SELECT, if it has one, and those of SELECTs inside it. -/
def Select.fromAliases : Select → List String
  | ⟨_, source, joins, condition, _, _⟩ =>
      source.aliasName.toList ++ Join.allFromAliases joins ++ Expr.clauseFromAliases condition

def Expr.clauseFromAliases : Option Expr → List String
  | none => []
  | some condition => condition.fromAliases

end

/-- The aliases in the joins and in the condition of a SELECT. -/
def Select.innerAliases (select : Select) : List String :=
  Join.allFromAliases select.joins ++ Expr.clauseFromAliases select.condition

theorem Select.fromAliases_eq (select : Select) :
    select.fromAliases = select.source.aliasName.toList ++ select.innerAliases := by
  rcases select with ⟨projection, source, joins, condition, order, limit⟩
  rw [Select.fromAliases, List.append_assoc]
  rfl

section Parts

variable {parts : List Expr} {groups : List (List Expr)} {joins : List Join}

theorem Expr.allFromAliases_eq : Expr.allFromAliases parts = parts.flatMap Expr.fromAliases := by
  induction parts with
  | nil => rfl
  | cons part rest step => rw [Expr.allFromAliases, step, List.flatMap_cons]

theorem Join.allFromAliases_eq :
    Join.allFromAliases joins = joins.flatMap fun join => join.condition.fromAliases := by
  induction joins with
  | nil => rfl
  | cons join rest step =>
      rcases join with ⟨table, condition⟩
      rw [Join.allFromAliases, step, List.flatMap_cons]

/-- The aliases inside a condition are those inside its parts. -/
theorem Expr.fromAliases_gathered : Expr.Gathered Expr.fromAliases where
  truth := rfl
  column _ := rfl
  concat _ := rfl
  literal _ := rfl
  compare _ _ _ := rfl
  like _ _ := rfl
  nullCheck _ _ := rfl
  inList _ _ _ := rfl
  and _ := Expr.allFromAliases_eq
  group _ := rfl

theorem fromAliases_onCondition :
    (onCondition (groups.flatMap fieldParts)).fromAliases =
      groups.flatMap fun group => group.flatMap Expr.fromAliases :=
  Expr.fromAliases_gathered.onCondition

theorem clauseFromAliases_whereClause :
    Expr.clauseFromAliases (whereClause (groups.flatMap fieldParts)) =
      groups.flatMap fun group => group.flatMap Expr.fromAliases := by
  rw [← Expr.fromAliases_gathered.whereClause]
  cases whereClause (groups.flatMap fieldParts) <;> rfl

end Parts

/-! ## Aliases that a compilation takes -/

/-- Between the states these aliases were generated, all different and from names that were free. -/
structure CompileState.Takes
    (before : CompileState) (aliases : List String) (after : CompileState) : Prop where
  distinct : aliases.Nodup
  free : ∀ aliasName ∈ aliases, aliasName ∉ before.scope.taken
  taken : ∀ aliasName ∈ aliases, aliasName ∈ after.scope.taken
  generated : ∀ aliasName ∈ aliases, IsGeneratedAlias aliasName
  kept : before.Within after

namespace CompileState.Takes

variable {before middle after : CompileState} {first second : List String}

theorem nothing (kept : before.Within after) : before.Takes [] after :=
  ⟨.nil, by simp, by simp, by simp, kept⟩

/-- The second part of a compilation cannot take what the first one took. -/
theorem append (own : before.Takes first middle) (other : middle.Takes second after) :
    before.Takes (first ++ second) after where
  distinct := by
    refine List.nodup_append.2 ⟨own.distinct, other.distinct, ?_⟩
    rintro aliasName early _ late rfl
    exact other.free aliasName late (own.taken aliasName early)
  free := by
    refine List.forall_mem_append.2 ⟨own.free, fun aliasName member known => ?_⟩
    exact other.free aliasName member (own.kept known)
  taken := List.forall_mem_append.2
    ⟨fun aliasName member => other.kept (own.taken aliasName member), other.taken⟩
  generated := List.forall_mem_append.2 ⟨own.generated, other.generated⟩
  kept := own.kept.trans other.kept

theorem addsUp : CompileState.AddsUp CompileState.Takes where
  nothing state := nothing (.refl state)
  append := append

end CompileState.Takes

variable {config : Config} {depth : Nat} {names : Names} {owner : String}
variable {before after : CompileState}

/-- Wherever the constraint is compiled, it takes the aliases of its condition. -/
def Constraint.TakesOwn (config : Config) (constraint : Constraint) : Prop :=
  ∀ {depth : Nat} {names : Names} {owner field : String} {before : CompileState} {expr : Expr}
    {after : CompileState},
    Yields (constraintExpr config depth names owner field constraint) before expr after →
    before.Takes expr.fromAliases after

/-- The table of an embedded query has a generated alias. -/
theorem Query.source_of_embedded {query : Query} {source : TableRef}
    (embedded : query.embedded = true)
    (yields : Yields (query.frame.source config depth) before source after) :
    ∃ aliasName, source = ⟨query.table, some aliasName⟩ ∧ IsGeneratedAlias aliasName := by
  have given := (yields_source.1 yields).2.2.2
  rw [if_pos (by exact embedded)] at given
  exact ⟨_, given.1, isGeneratedAlias_generatedAlias _ _⟩

/-- The table of a query that stands in no other one has no alias. -/
theorem Query.source_of_standing {query : Query} {source : TableRef}
    (standing : query.embedded = false)
    (yields : Yields (query.frame.source config depth) before source after) :
    source = ⟨query.table, none⟩ := by
  have given := (yields_source.1 yields).2.2.2
  rw [if_neg (by simp [Query.frame, standing])] at given
  exact given.1

theorem QueryFrame.takes_of_source {frame : QueryFrame} {source : TableRef}
    (yields : Yields (frame.source config depth) before source after) :
    before.Takes source.aliasName.toList after := by
  rcases taken_of_source yields with ⟨kept, own, fresh⟩
  have source := (yields_source.1 yields).2.2.2
  cases embedded : frame.embedded with
  | false =>
      rw [if_neg (by simp [embedded])] at source
      rcases source with ⟨rfl, -⟩
      exact .nothing kept
  | true =>
      have new := (fresh embedded).2
      rw [if_pos embedded] at source
      rcases source with ⟨rfl, -⟩
      have generated := isGeneratedAlias_generatedAlias depth
        ((frame.reserved before.scope).freeNumber depth)
      exact ⟨List.nodup_singleton _, List.forall_mem_singleton.2 new,
        List.forall_mem_singleton.2 (own List.mem_cons_self),
        List.forall_mem_singleton.2 generated, kept⟩

theorem Query.takes_of_yields {query : Query} {enclosing : List String} {select : Select}
    (each : ∀ constraint ∈ query.constraints, constraint.TakesOwn config)
    (yields : Yields (query.compileAt config depth enclosing) before select after) :
    before.Takes select.fromAliases after := by
  rcases CompileState.Takes.addsUp.of_query Expr.fromAliases_gathered each yields with
    ⟨named, filtered, sourced, inside, rfl⟩
  have inner : select.innerAliases =
      (select.joins.flatMap fun join => join.condition.fromAliases) ++
        select.condition.elim [] Expr.fromAliases := by
    rw [Select.innerAliases, Join.allFromAliases_eq]
    cases select.condition <;> rfl
  have finished := CompileState.Takes.nothing (query.within_reported filtered)
  rw [Select.fromAliases_eq, inner]
  simpa using (QueryFrame.takes_of_source sourced).append (inside.append finished)

/-- Nothing is embedded in the condition of a plain constraint. -/
theorem Constraint.fromAliases_of_plain {constraint : Constraint} {field : String} {subject : Expr}
    (plain : constraint.Plain)
    (read : patternSubject config names owner field constraint.affix = .ok subject) :
    (constraint.predicate subject).fromAliases = [] :=
  predicate_gathered Expr.fromAliases_gathered plain read

/-- A constraint takes the aliases of its condition. -/
theorem Constraint.takesOwn (constraint : Constraint) : constraint.TakesOwn config := by
  induction constraint using Constraint.query_induction config with
  | plain constraint plain =>
      intro depth names owner field before expr after yields
      rcases (yields_of_plain plain).1 yields with ⟨subject, read, rfl, rfl⟩
      rw [fromAliases_of_plain plain read]
      exact .nothing (.refl _)
  | inQuery negated subquery inside =>
      intro depth names owner field before expr after yields
      rcases yields_inQuery.1 yields with ⟨column, select, -, compiled, rfl⟩
      exact Query.takes_of_yields inside compiled

/-- A query takes the aliases of its SELECT. -/
theorem Query.takes_fromAliases {query : Query} {enclosing : List String} {select : Select}
    (yields : Yields (query.compileAt config depth enclosing) before select after) :
    before.Takes select.fromAliases after :=
  query.takes_of_yields (fun constraint _ => constraint.takesOwn) yields

end SqlScribe
