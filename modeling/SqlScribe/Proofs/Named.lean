import SqlScribe.Column
import SqlScribe.Proofs.GeneratedAliases

/-!
# The names in statements

Every name in a compiled statement was checked, or was generated as an alias.
`Named` says that all names of a tree have some property, and the theorems say
that the compiler of queries establishes every property that checked names have
and the generated aliases of the statement.
-/

namespace SqlScribe

open Checked

section Named

variable (property : String → Prop)

/-! ## Names in trees -/

def TableRef.Named (table : TableRef) : Prop :=
  property table.name ∧ ∀ aliasName ∈ table.aliasName, property aliasName

def ColumnRef.Named (column : ColumnRef) : Prop :=
  (∀ qualifier ∈ column.qualifier, property qualifier) ∧ property column.name

def SelectItem.Named (item : SelectItem) : Prop :=
  item.column.Named property ∧ ∀ output ∈ item.output, property output

def Projection.Named : Projection → Prop
  | .all => True
  | .columns items => ∀ item ∈ items, item.Named property
  | .count output => property output

mutual

def Expr.Named : Expr → Prop
  | .column column => column.Named property
  | .concat columns => ∀ column ∈ columns, column.Named property
  | .literal _ => True
  | .compare left _ right => left.Named ∧ right.Named
  | .like subject _ => subject.Named
  | .nullCheck subject _ => subject.Named
  | .inList subject _ _ => subject.Named
  | .inSelect subject query _ => subject.Named ∧ query.Named
  | .and parts => Expr.AllNamed parts
  | .group inner => inner.Named
  | .truth => True

def Expr.AllNamed : List Expr → Prop
  | [] => True
  | part :: rest => part.Named ∧ Expr.AllNamed rest

def Join.Named : Join → Prop
  | ⟨table, condition⟩ => table.Named property ∧ condition.Named

def Join.AllNamed : List Join → Prop
  | [] => True
  | join :: rest => join.Named ∧ Join.AllNamed rest

def Select.Named : Select → Prop
  | ⟨projection, source, joins, condition, order, _⟩ =>
      projection.Named property ∧ source.Named property ∧ Join.AllNamed joins ∧
        (match condition with
        | none => True
        | some condition => condition.Named) ∧
        ∀ key ∈ order, key.column.Named property

end

def Insert.Named (insert : Insert) : Prop :=
  property insert.table ∧ (∀ column ∈ insert.columns, property column) ∧
    ∀ assignment ∈ insert.onDuplicate, property assignment.column

def Update.Named (update : Update) : Prop :=
  property update.table ∧ (∀ assignment ∈ update.assignments, property assignment.column) ∧
    update.condition.Named property

def Delete.Named (delete : Delete) : Prop :=
  property delete.table ∧ delete.condition.Named property

/-- The column has a name with the property, and the type of a description. -/
def ColumnDefinition.Named (definition : ColumnDefinition) : Prop :=
  property definition.name ∧ ∃ spec : ColumnSpec, definition.sqlType = spec.sqlType

def CreateTable.Named (create : CreateTable) : Prop :=
  property create.table ∧ (∀ definition ∈ create.columns, definition.Named property) ∧
    ∀ column ∈ create.unique, property column

def TableAlteration.Named : TableAlteration → Prop
  | .add definition => definition.Named property
  | .modify definition => definition.Named property
  | .drop column => property column
  | .change column definition => property column ∧ definition.Named property
  | .addUnique columns => ∀ column ∈ columns, property column

def AlterTable.Named (alter : AlterTable) : Prop :=
  property alter.table ∧ ∀ alteration ∈ alter.alterations, alteration.Named property

def Statement.Named : Statement → Prop
  | .select statement => statement.Named property
  | .insert statement => statement.Named property
  | .update statement => statement.Named property
  | .delete statement => statement.Named property
  | .createTable statement => statement.Named property
  | .alterTable statement => statement.Named property
  | .dropTable statement => property statement.table

end Named

/-! ## Queries -/

section Query

variable {property : String → Prop} {config : Config} {depth : Nat} {names : Names}
variable {owner path : String}

theorem Expr.allNamed_iff {parts : List Expr} :
    Expr.AllNamed property parts ↔ ∀ part ∈ parts, part.Named property := by
  induction parts with
  | nil => simp [AllNamed]
  | cons part rest step => simp [AllNamed, step]

theorem Join.allNamed_iff {joins : List Join} :
    Join.AllNamed property joins ↔ ∀ join ∈ joins, join.Named property := by
  induction joins with
  | nil => simp [AllNamed]
  | cons join rest step => simp [AllNamed, step]

theorem Join.named_iff {join : Join} :
    join.Named property ↔ join.table.Named property ∧ join.condition.Named property := by
  cases join
  exact Iff.rfl

theorem Select.named_iff {select : Select} :
    select.Named property ↔
      select.projection.Named property ∧ select.source.Named property ∧
        (∀ join ∈ select.joins, join.Named property) ∧
        (∀ condition ∈ select.condition, condition.Named property) ∧
        ∀ key ∈ select.order, key.column.Named property := by
  cases select with
  | mk projection source joins condition order limit =>
      cases condition <;> simp [Select.Named, Join.allNamed_iff]

theorem Expr.named_inherited : Expr.Inherited (Expr.Named property) :=
  ⟨trivial, fun each => Expr.allNamed_iff.2 each, fun inner => inner⟩

theorem Expr.named_inListOrTruth {subject : Expr} {values : List Json} {negated : Bool}
    (named : subject.Named property) : (Expr.inListOrTruth subject values negated).Named property := by
  unfold Expr.inListOrTruth
  split
  · trivial
  · exact named

/-- Checked names have the property. -/
structure AdmitsIdentifiers (property : String → Prop) : Prop where
  identifier : ∀ {name}, IsIdentifier name → property name

/-- Checked names and generated aliases have the property. -/
structure Admitted (property : String → Prop) : Prop extends AdmitsIdentifiers property where
  generated : ∀ depth number, property (generatedAlias depth number)

theorem Names.named_of_resolveIn {column : ColumnRef}
    (admitted : AdmitsIdentifiers property) (own : property owner)
    (resolved : names.resolveIn owner path = .ok column) : column.Named property := by
  rcases resolveIn_eq_ok.1 resolved with ⟨parsed, read, -, rfl⟩
  rcases ColumnPath.parse_eq_ok read with ⟨name, qualified, -⟩
  constructor
  · intro qualifier member
    cases member
    cases written : parsed.qualifier with
    | none => exact own
    | some qualifier => exact admitted.identifier (qualified qualifier written)
  · exact admitted.identifier name

/-- The property of constraints that the induction carries. -/
def Constraint.NamedIn (property : String → Prop) : ConstraintRelation :=
  fun _ _ owner _ _ expr =>
    property owner → (∀ aliasName ∈ expr.fromAliases, property aliasName) → expr.Named property

theorem ConditionsCompiled.named
    {entries : List FieldConstraints} {groups : List (List Expr)}
    (own : property owner)
    (aliases : ∀ aliasName ∈ groups.flatMap fun group => group.flatMap Expr.fromAliases,
      property aliasName)
    (compiled : ConditionsCompiled (Constraint.NamedIn property) depth names owner entries groups) :
    ∀ group ∈ groups, ∀ expr ∈ group, expr.Named property := by
  intro group present expr inside
  rcases compiled.mem group present expr inside with ⟨_, _, _, _, named⟩
  refine named own fun aliasName member => aliases aliasName ?_
  exact List.mem_flatMap.2 ⟨group, present, List.mem_flatMap.2 ⟨expr, inside, member⟩⟩

theorem JoinSpec.Compiled.named
    {earlier : List String} {join : JoinSpec} {node : Join}
    (admitted : AdmitsIdentifiers property)
    (primary : property names.primary)
    (own : IsIdentifier join.aliasName)
    (aliases : ∀ aliasName ∈ node.condition.fromAliases, property aliasName)
    (compiled : join.Compiled config (Constraint.NamedIn property) depth names earlier node) :
    node.Named property := by
  have table : node.table.Named property := by
    rw [compiled.table]
    constructor
    · exact admitted.identifier compiled.identifier
    · intro aliasName member
      cases member
      exact admitted.identifier own
  refine Join.named_iff.2 ⟨table, ?_⟩
  rcases compiled.condition with ⟨via, path, -, -, read, -, key, condition⟩ | constrained
  · have parsed := ColumnPath.parse_eq_ok read
    rw [condition]
    refine ⟨⟨?_, admitted.identifier parsed.1⟩, ?_, admitted.identifier key⟩
    · intro qualifier member
      cases member
      cases written : path.qualifier with
      | none => exact primary
      | some qualifier => exact admitted.identifier (parsed.2.1 qualifier written)
    · intro qualifier member
      cases member
      exact admitted.identifier own
  · rcases constrained with ⟨groups, -, -, -, condition, inner⟩
    rw [condition, fromAliases_onCondition] at aliases
    rw [condition]
    exact Expr.named_inherited.onCondition (inner.named (admitted.identifier own) aliases)

theorem Query.Compiled.named
    {enclosing : List String} {query : Query} {select : Select}
    (admitted : AdmitsIdentifiers property)
    (given : ∀ aliasName ∈ select.fromAliases, property aliasName)
    (compiled : query.Compiled config (Constraint.NamedIn property) depth enclosing select) :
    select.Named property := by
  have aliases := (checkAliases_eq_ok.1 compiled.aliases).1
  rw [Select.fromAliases_eq, Select.innerAliases, List.forall_mem_append,
    List.forall_mem_append, Join.allFromAliases_eq] at given
  rcases given with ⟨own, joins, inner⟩
  have source : select.source.Named property ∧ property select.source.reference := by
    have shape := compiled.source
    have table := admitted.identifier compiled.table
    split at shape
    · rcases shape with ⟨number, shape⟩
      rw [shape] at own ⊢
      have generated := own _ List.mem_cons_self
      refine ⟨⟨table, ?_⟩, generated⟩
      rintro aliasName ⟨⟩
      exact generated
    · rw [shape]
      exact ⟨⟨table, by simp⟩, table⟩
  have column {path : String} {column : ColumnRef}
      (resolved : (query.namesIn enclosing select).resolve path = .ok column) :
      column.Named property :=
    Names.named_of_resolveIn admitted source.2 resolved
  refine Select.named_iff.2 ⟨?_, source.1, ?_, ?_, ?_⟩
  · rcases projection_of_frame compiled.projection with ⟨-, all⟩ | ⟨items, -, listed, each⟩
    · rw [all]
      trivial
    · rw [listed]
      intro item member
      rcases exists_of_forall₂ each item member with ⟨selection, -, resolved, output⟩
      refine ⟨column resolved, ?_⟩
      split at output
      · simp [output]
      · rw [output.2]
        intro name given
        cases given
        exact admitted.identifier output.1
  · intro node member
    rcases exists_of_forall₂ compiled.joins node member with ⟨entry, written, joined⟩
    have declared := (JoinSpec.mem_withEarlier written).1
    exact joined.named admitted source.2 (aliases _ (List.mem_map_of_mem declared)).1
      fun aliasName inside => joins aliasName (List.mem_flatMap.2 ⟨node, member, inside⟩)
  · rcases compiled.condition with ⟨groups, condition, constraints⟩
    rw [condition, clauseFromAliases_whereClause] at inner
    rw [condition]
    exact Expr.named_inherited.whereClause (constraints.named source.2 inner)
  · intro key member
    rcases exists_of_forall₂ (order_of_frame compiled.order) key member with ⟨_, -, resolved, -⟩
    exact column resolved

theorem Constraint.namedIn_cases (config : Config) (admitted : AdmitsIdentifiers property) :
    CompileCases config (Constraint.NamedIn property) fun _ _ _ select =>
      (∀ aliasName ∈ select.fromAliases, property aliasName) → select.Named property where
  compare resolved own _ := ⟨Names.named_of_resolveIn admitted own resolved, trivial⟩
  matching resolved own _ := by
    rcases patternSubject_eq_ok resolved with ⟨column, read, rfl⟩ | ⟨-, columns, parts, rfl⟩
    · exact Names.named_of_resolveIn admitted own read
    · intro column member
      rcases exists_of_forall₂ parts column member with ⟨part, -, read⟩
      exact Names.named_of_resolveIn admitted own read
  present resolved own _ := Names.named_of_resolveIn admitted own resolved
  inList resolved own _ := Expr.named_inListOrTruth (Names.named_of_resolveIn admitted own resolved)
  inQuery resolved _ inner own aliases :=
    ⟨Names.named_of_resolveIn admitted own resolved, inner aliases⟩
  query compiled aliases := compiled.named admitted aliases

/-- Every name in the SELECT of a query was checked, or it is one of its aliases. -/
theorem Query.named_of_aliases
    {query : Query} {select : Select}
    (admitted : AdmitsIdentifiers property)
    (compiled : (query.statement config).1 = .ok select)
    (aliases : ∀ aliasName ∈ select.fromAliases, property aliasName) : select.Named property :=
  (Constraint.namedIn_cases config admitted).statement compiled aliases

/-- Every name in the SELECT of a query was checked or generated. -/
theorem Query.named_of_statement
    {query : Query} {select : Select}
    (admitted : Admitted property)
    (compiled : (query.statement config).1 = .ok select) : select.Named property := by
  refine named_of_aliases admitted.toAdmitsIdentifiers compiled fun aliasName member => ?_
  rcases statement_eq_ok.1 compiled with ⟨after, yields⟩
  rcases (takes_fromAliases yields).generated aliasName member with ⟨depth, number, rfl⟩
  exact admitted.generated depth number

/-- A SELECT for another operation has the same names, and that of a count. -/
theorem Query.named_adapted
    {select : Select} (admitted : AdmitsIdentifiers property) (named : select.Named property)
    (operation : ReadOperation) : (Query.adapted select operation).Named property := by
  cases operation with
  | find => exact named
  | first =>
      have parts := Select.named_iff.1 named
      exact Select.named_iff.2 parts
  | count =>
      rcases Select.named_iff.1 named with ⟨-, source, joins, condition, -⟩
      have output : IsIdentifier Query.countOutput := rfl
      refine Select.named_iff.2 ⟨admitted.identifier output, source, joins, condition, ?_⟩
      intro key member
      cases member

end Query

end SqlScribe
