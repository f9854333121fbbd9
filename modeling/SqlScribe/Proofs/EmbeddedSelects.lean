import SqlScribe.Proofs.GeneratedAliases

/-!
# SELECTs inside SELECTs

`Select.embeddedSelects` lists the SELECTs inside a SELECT, at every depth and
in the order in which they are written, each with the SELECTs around it.  What
is to hold of every SELECT of a statement, or of a SELECT and the ones around
it, is said of the members of this list.

The embedded SELECTs of a clause are those of the conditions that it is put
together from, so a compilation can be followed condition by condition.
-/

namespace SqlScribe

/-- A SELECT in a condition: the SELECTs around it, the innermost one first, and its negation. -/
structure EmbeddedSelect where
  around : List Select
  negated : Bool
  select : Select

mutual

/-- The SELECTs inside a condition, which has these SELECTs around it. -/
def Expr.embeddedSelects (around : List Select) : Expr → List EmbeddedSelect
  | .column _ | .concat _ | .literal _ | .truth => []
  | .compare left _ right => left.embeddedSelects around ++ right.embeddedSelects around
  | .like subject _ | .nullCheck subject _ | .inList subject _ _ => subject.embeddedSelects around
  | .inSelect subject query negated =>
      subject.embeddedSelects around ++ ⟨around, negated, query⟩ :: query.embeddedSelects around
  | .and parts => Expr.allEmbeddedSelects around parts
  | .group inner => inner.embeddedSelects around

def Expr.allEmbeddedSelects (around : List Select) : List Expr → List EmbeddedSelect
  | [] => []
  | part :: rest => part.embeddedSelects around ++ Expr.allEmbeddedSelects around rest

def Join.allEmbeddedSelects (around : List Select) : List Join → List EmbeddedSelect
  | [] => []
  | ⟨_, condition⟩ :: rest =>
      condition.embeddedSelects around ++ Join.allEmbeddedSelects around rest

/-- The SELECTs inside a SELECT, which itself has these SELECTs around it. -/
def Select.embeddedSelects (around : List Select) : Select → List EmbeddedSelect
  | ⟨projection, source, joins, condition, order, limit⟩ =>
      let inside := ⟨projection, source, joins, condition, order, limit⟩ :: around
      Join.allEmbeddedSelects inside joins ++
        match condition with
        | none => []
        | some condition => condition.embeddedSelects inside

end

/-- The SELECTs of a statement: the outermost one and all that it has inside. -/
def Select.all (select : Select) : List Select :=
  select :: (select.embeddedSelects []).map EmbeddedSelect.select

/-- The names that a SELECT gives to its tables, and the name of its own table. -/
def Select.tableNames (select : Select) : List String :=
  select.source.name :: select.source.reference :: Join.references select.joins

section Parts

variable {around : List Select} {parts : List Expr} {joins : List Join}

theorem Expr.allEmbeddedSelects_eq :
    Expr.allEmbeddedSelects around parts = parts.flatMap (Expr.embeddedSelects around) := by
  induction parts with
  | nil => rfl
  | cons part rest step => rw [Expr.allEmbeddedSelects, step, List.flatMap_cons]

theorem Join.allEmbeddedSelects_eq :
    Join.allEmbeddedSelects around joins =
      joins.flatMap fun join => join.condition.embeddedSelects around := by
  induction joins with
  | nil => rfl
  | cons join rest step =>
      rcases join with ⟨table, condition⟩
      rw [Join.allEmbeddedSelects, step, List.flatMap_cons]

/-- The SELECTs inside a condition are those inside its parts. -/
theorem Expr.embeddedSelects_gathered (around : List Select) :
    Expr.Gathered (Expr.embeddedSelects around) where
  truth := rfl
  column _ := rfl
  concat _ := rfl
  literal _ := rfl
  compare _ _ _ := rfl
  like _ _ := rfl
  nullCheck _ _ := rfl
  inList _ _ _ := rfl
  and _ := Expr.allEmbeddedSelects_eq
  group _ := rfl

theorem Select.embeddedSelects_eq (around : List Select) (select : Select) :
    select.embeddedSelects around =
      (select.joins.flatMap fun join => join.condition.embeddedSelects (select :: around)) ++
        select.condition.elim [] (Expr.embeddedSelects (select :: around)) := by
  rcases select with ⟨projection, source, joins, _ | condition, order, limit⟩
  · rw [Select.embeddedSelects, Join.allEmbeddedSelects_eq]
    rfl
  · rw [Select.embeddedSelects, Join.allEmbeddedSelects_eq]
    rfl

end Parts

/-! ## The aliases of embedded SELECTs -/

/-- The alias of the SELECT's own table, if it has one. -/
def EmbeddedSelect.aliasName? (embedded : EmbeddedSelect) : Option String :=
  embedded.select.source.aliasName

mutual

/-- The aliases inside a condition are those of the SELECTs inside it. -/
theorem Expr.filterMap_embeddedSelects (around : List Select) :
    ∀ expr : Expr,
      (expr.embeddedSelects around).filterMap EmbeddedSelect.aliasName? = expr.fromAliases
  | .column _ | .concat _ | .literal _ | .truth => rfl
  | .compare left _ right => by
      rw [Expr.embeddedSelects, List.filterMap_append, left.filterMap_embeddedSelects,
        right.filterMap_embeddedSelects, Expr.fromAliases]
  | .like subject _ | .nullCheck subject _ | .inList subject _ _ => by
      rw [Expr.embeddedSelects, subject.filterMap_embeddedSelects, Expr.fromAliases]
  | .inSelect subject query negated => by
      rw [Expr.embeddedSelects, List.filterMap_append, subject.filterMap_embeddedSelects,
        Expr.fromAliases, ← query.filterMap_embeddedSelects around, List.filterMap_cons]
      cases aliased : query.source.aliasName <;>
        simp [EmbeddedSelect.aliasName?, aliased]
  | .and parts => by
      rw [Expr.embeddedSelects, Expr.allFilterMap_embeddedSelects, Expr.fromAliases]
  | .group inner => by
      rw [Expr.embeddedSelects, inner.filterMap_embeddedSelects, Expr.fromAliases]

theorem Expr.allFilterMap_embeddedSelects (around : List Select) :
    ∀ parts : List Expr,
      (Expr.allEmbeddedSelects around parts).filterMap EmbeddedSelect.aliasName? =
        Expr.allFromAliases parts
  | [] => rfl
  | part :: rest => by
      rw [Expr.allEmbeddedSelects, List.filterMap_append, part.filterMap_embeddedSelects,
        Expr.allFilterMap_embeddedSelects around rest, Expr.allFromAliases]

theorem Join.allFilterMap_embeddedSelects (around : List Select) :
    ∀ joins : List Join,
      (Join.allEmbeddedSelects around joins).filterMap EmbeddedSelect.aliasName? =
        Join.allFromAliases joins
  | [] => rfl
  | ⟨_, condition⟩ :: rest => by
      rw [Join.allEmbeddedSelects, List.filterMap_append, condition.filterMap_embeddedSelects,
        Join.allFilterMap_embeddedSelects around rest, Join.allFromAliases]

theorem Select.filterMap_embeddedSelects (around : List Select) :
    ∀ select : Select,
      select.source.aliasName.toList ++
        (select.embeddedSelects around).filterMap EmbeddedSelect.aliasName? = select.fromAliases
  | ⟨projection, source, joins, none, order, limit⟩ => by
      rw [Select.embeddedSelects, List.filterMap_append, Join.allFilterMap_embeddedSelects,
        Select.fromAliases, List.append_assoc]
      rfl
  | ⟨projection, source, joins, some condition, order, limit⟩ => by
      rw [Select.embeddedSelects, List.filterMap_append, Join.allFilterMap_embeddedSelects,
        condition.filterMap_embeddedSelects, Select.fromAliases, List.append_assoc]
      rfl

end

end SqlScribe
