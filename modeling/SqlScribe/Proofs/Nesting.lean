import SqlScribe.Proofs.AliasScope
import SqlScribe.Proofs.Compile.Induction
import SqlScribe.Proofs.Compile.Predicate

/-!
# Queries inside queries

`Query.Nests` relates a query to the queries inside it, with the number of
constraints around them.  What is written in a query, its paths and the names
of its tables, can so be spoken of for all of them at once.

The qualifiers of the paths matter most: a qualifier that does not look like a
generated alias cannot refer to one.
-/

namespace SqlScribe

/-- The name looks like a generated alias. -/
def IsGeneratedAlias (name : String) : Prop := ∃ depth number, name = aliasText depth number

theorem isGeneratedAlias_generatedAlias (depth number : Nat) :
    IsGeneratedAlias (generatedAlias depth number) :=
  ⟨depth, number, generatedAlias_eq depth number⟩

/-- A name that does not begin with `sq` looks different from a generated alias. -/
theorem not_isGeneratedAlias {name : String} (other : name.toList.take 2 ≠ ['s', 'q']) :
    ¬ IsGeneratedAlias name := by
  rintro ⟨depth, number, rfl⟩
  refine other ?_
  simp [aliasText]

/-! ## The constraints of an embedded query -/

@[simp]
theorem Subquery.constraints_completed {config : Config} {subquery : Subquery} :
    (subquery.completed config).constraints = subquery.constraints :=
  subquery.constraints_asQuery config subquery.implied?

/-- Induction on constraints, where the query in a constraint is read as the one compiled for it. -/
theorem Constraint.query_induction (config : Config) {motive : Constraint → Prop}
    (plain : ∀ constraint : Constraint, constraint.Plain → motive constraint)
    (inQuery : ∀ negated subquery,
      (∀ inner ∈ (Subquery.completed config subquery).constraints, motive inner) →
        motive (.inQuery negated subquery))
    (constraint : Constraint) : motive constraint := by
  induction constraint using Constraint.nested_induction with
  | step constraint nested =>
      rcases constraint.plain_or_inQuery with own | ⟨negated, subquery, rfl⟩
      · exact plain constraint own
      · refine inQuery negated subquery ?_
        rw [Subquery.constraints_completed]
        exact nested

/-! ## What is written in a query -/

/-- The path is written with this qualifier. -/
def QualifiedBy (path qualifier : String) : Prop :=
  ∃ parsed, ColumnPath.parse path = .ok parsed ∧ parsed.qualifier = some qualifier

theorem qualifiedBy_iff {path qualifier : String} :
    QualifiedBy path qualifier ↔
      (ColumnPath.parse path).toOption.bind ColumnPath.qualifier = some qualifier := by
  unfold QualifiedBy
  cases ColumnPath.parse path <;> simp [Except.toOption]

/-- A path that does not begin with `sq` is not qualified by a generated alias. -/
theorem QualifiedBy.not_isGeneratedAlias {path qualifier : String}
    (qualified : QualifiedBy path qualifier) (other : path.toList.take 2 ≠ ['s', 'q']) :
    ¬ IsGeneratedAlias qualifier := by
  rcases qualified with ⟨parsed, read, given⟩
  have written := (ColumnPath.parse_eq_ok read).2.2
  simp only [given] at written
  rintro ⟨depth, number, rfl⟩
  refine other ?_
  simp [written, aliasText]

theorem not_isGeneratedAlias_of_paths {paths : List String}
    (other : ∀ path ∈ paths, path.toList.take 2 ≠ ['s', 'q']) :
    ∀ path ∈ paths, ∀ qualifier, QualifiedBy path qualifier → ¬ IsGeneratedAlias qualifier :=
  fun path written _ qualified => qualified.not_isGeneratedAlias (other path written)

/-- The paths that a field stands for in a constraint: several for a pattern on several columns. -/
def Constraint.paths (config : Config) (field : String) (constraint : Constraint) : List String :=
  if constraint.affix = .anywhere ∧ config.hasDelimiter ∈ field.toList then
    (Text.splitAt config.hasDelimiter field.toList).map String.ofList
  else [field]

/-- The paths in the constraints on some fields. -/
def FieldConstraints.paths (config : Config) (entries : List FieldConstraints) : List String :=
  entries.flatMap fun entry => entry.constraints.flatMap (Constraint.paths config entry.field)

def JoinSpec.paths (config : Config) (join : JoinSpec) : List String :=
  join.via.toList ++ FieldConstraints.paths config join.entries

namespace Query

/-- The paths in a query, without those in the queries inside it. -/
def paths (config : Config) (query : Query) : List String :=
  query.selection.map Selection.path ++ query.joins.flatMap (JoinSpec.paths config) ++
    FieldConstraints.paths config query.conditions.entries ++ query.sort.map SortKey.field

/-- The names that a query gives to its tables. -/
def tableNames (query : Query) : List String :=
  query.table :: query.joins.map JoinSpec.aliasName

/-- The query is a part of another one, inside this many constraints. -/
inductive Nests (config : Config) : Query → Nat → Query → Prop where
  | self {query} : Nests config query 0 query
  | inside {query level inner negated subquery}
      (member : .inQuery negated subquery ∈ query.constraints)
      (nests : Nests config (Subquery.completed config subquery) level inner) :
      Nests config query (level + 1) inner

/-- Something holds of a query and of all queries inside it. -/
def Throughout (config : Config) (holds : Query → Prop) (query : Query) : Prop :=
  ∀ level inner, query.Nests config level inner → holds inner

/-- All qualifiers in the query and in the queries inside it have a property. -/
def Qualifiers (config : Config) (property : String → Prop) : Query → Prop :=
  Throughout config fun inner =>
    ∀ path ∈ inner.paths config, ∀ qualifier, QualifiedBy path qualifier → property qualifier

/-- The names of all tables in the query and in the queries inside it have a property. -/
def TableNames (config : Config) (property : String → Prop) : Query → Prop :=
  Throughout config fun inner => ∀ name ∈ inner.tableNames, property name

namespace Throughout

variable {config : Config} {holds : Query → Prop} {query : Query}

theorem own (throughout : query.Throughout config holds) : holds query :=
  throughout 0 query .self

theorem inner {negated : Bool} {subquery : Subquery}
    (throughout : query.Throughout config holds)
    (member : .inQuery negated subquery ∈ query.constraints) :
    (subquery.completed config).Throughout config holds :=
  fun level inner nests => throughout (level + 1) inner (.inside member nests)

/-- What holds of a query and throughout the queries in its constraints holds throughout. -/
theorem of_inner (own : holds query)
    (inner : ∀ negated subquery, .inQuery negated subquery ∈ query.constraints →
      (subquery.completed config).Throughout config holds) :
    query.Throughout config holds := by
  intro level found nests
  cases nests with
  | self => exact own
  | inside member nests => exact inner _ _ member _ _ nests

end Throughout

end Query

/-- The qualifiers in a constraint on a field, and in a query inside it, have a property. -/
structure Constraint.Qualifiers
    (config : Config) (property : String → Prop) (field : String) (constraint : Constraint) :
    Prop where
  own : ∀ path ∈ constraint.paths config field, ∀ qualifier, QualifiedBy path qualifier →
    property qualifier
  inner : ∀ negated subquery, constraint = .inQuery negated subquery →
    (subquery.completed config).Qualifiers config property

namespace Query.Qualifiers

variable {config : Config} {property : String → Prop} {query : Query}
variable {entry : FieldConstraints} {constraint : Constraint}

/-- Without paths that begin with `sq`, no qualifier in a query looks like a generated alias. -/
theorem of_paths
    (own : ∀ path ∈ query.paths config, path.toList.take 2 ≠ ['s', 'q'])
    (inner : ∀ negated subquery, .inQuery negated subquery ∈ query.constraints →
      (subquery.completed config).Qualifiers config (¬ IsGeneratedAlias ·)) :
    query.Qualifiers config (¬ IsGeneratedAlias ·) :=
  .of_inner (not_isGeneratedAlias_of_paths own) inner

theorem selection {selection : Selection} {qualifier : String}
    (qualifiers : query.Qualifiers config property) (member : selection ∈ query.selection)
    (qualified : QualifiedBy selection.path qualifier) : property qualifier := by
  refine qualifiers.own selection.path ?_ qualifier qualified
  simp only [paths, List.mem_append]
  exact .inl (.inl (.inl (List.mem_map_of_mem member)))

theorem sort {key : SortKey} {qualifier : String}
    (qualifiers : query.Qualifiers config property) (member : key ∈ query.sort)
    (qualified : QualifiedBy key.field qualifier) : property qualifier := by
  refine qualifiers.own key.field ?_ qualifier qualified
  simp only [paths, List.mem_append]
  exact .inr (List.mem_map_of_mem member)

theorem via {join : JoinSpec} {path qualifier : String}
    (qualifiers : query.Qualifiers config property) (member : join ∈ query.joins)
    (given : join.via = some path) (qualified : QualifiedBy path qualifier) :
    property qualifier := by
  refine qualifiers.own path ?_ qualifier qualified
  simp only [paths, List.mem_append]
  refine .inl (.inl (.inr (List.mem_flatMap.2 ⟨join, member, List.mem_append_left _ ?_⟩)))
  simp [given]

theorem condition
    (qualifiers : query.Qualifiers config property) (member : entry ∈ query.conditions.entries)
    (inside : constraint ∈ entry.constraints) :
    constraint.Qualifiers config property entry.field where
  own path written qualifier qualified := by
    refine qualifiers.own path ?_ qualifier qualified
    simp only [paths, List.mem_append]
    exact .inl (.inr (List.mem_flatMap.2
      ⟨entry, member, List.mem_flatMap.2 ⟨constraint, inside, written⟩⟩))
  inner := by
    rintro negated subquery rfl
    exact Throughout.inner qualifiers (mem_constraints_of_condition member inside)

theorem joinCondition {join : JoinSpec}
    (qualifiers : query.Qualifiers config property) (present : join ∈ query.joins)
    (member : entry ∈ join.entries) (inside : constraint ∈ entry.constraints) :
    constraint.Qualifiers config property entry.field where
  own path written qualifier qualified := by
    refine qualifiers.own path ?_ qualifier qualified
    simp only [paths, List.mem_append]
    exact .inl (.inl (.inr (List.mem_flatMap.2 ⟨join, present, List.mem_append_right _
      (List.mem_flatMap.2 ⟨entry, member, List.mem_flatMap.2 ⟨constraint, inside, written⟩⟩)⟩)))
  inner := by
    rintro negated subquery rfl
    exact Throughout.inner qualifiers (mem_constraints_of_join present member inside)

end Query.Qualifiers

end SqlScribe
