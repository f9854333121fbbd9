import Mathlib
import SqlScribe.Proofs.EmbeddedSelects

/-!
# What embedded queries become

`Query.embeddedQueries` lists the queries in the constraints of a query, at
every depth, each with its level: how many queries it has around it.  The list
is in the order of compilation, so the embedded SELECTs of the statement are
those of the list, one for one.

`EmbeddedQuery.Becomes` is the form of such a SELECT.  It says what the query
alone determines: negation, level, table, column, joined tables and the part of
the rows.
-/

namespace SqlScribe

open Compile
open Checked

/-- A query in a constraint: its level, and whether its rows are to be excluded. -/
structure EmbeddedQuery where
  level : Nat
  negated : Bool
  query : Subquery

mutual

/-- The queries in a constraint, the outermost of which has this level. -/
def Constraint.embeddedQueries (level : Nat) : Constraint → List EmbeddedQuery
  | .compare _ _ | .matching _ _ | .present _ | .inList _ _ => []
  | .inQuery negated query => ⟨level, negated, query⟩ :: query.embeddedQueries (level + 1)

def Constraint.allEmbeddedQueries (level : Nat) : List Constraint → List EmbeddedQuery
  | [] => []
  | constraint :: rest =>
      constraint.embeddedQueries level ++ Constraint.allEmbeddedQueries level rest

/-- The queries in the constraints on some fields. -/
def FieldConstraints.embeddedQueries (level : Nat) : List FieldConstraints → List EmbeddedQuery
  | [] => []
  | ⟨_, constraints⟩ :: rest =>
      Constraint.allEmbeddedQueries level constraints ++
        FieldConstraints.embeddedQueries level rest

/-- The queries in the constraints of some joins. -/
def JoinSpec.embeddedQueries (level : Nat) : List JoinSpec → List EmbeddedQuery
  | [] => []
  | ⟨_, _, _, none, _⟩ :: rest => JoinSpec.embeddedQueries level rest
  | ⟨_, _, _, some ⟨entries⟩, _⟩ :: rest =>
      FieldConstraints.embeddedQueries level entries ++ JoinSpec.embeddedQueries level rest

/-- The queries inside an embedded query, those in its joins first. -/
def Subquery.embeddedQueries (level : Nat) : Subquery → List EmbeddedQuery
  | ⟨_, _, ⟨entries⟩, joins, _, _⟩ =>
      JoinSpec.embeddedQueries level joins ++ FieldConstraints.embeddedQueries level entries

end

/-- The queries inside a query, the outermost of which have this level. -/
def Query.embeddedQueries (level : Nat) (query : Query) : List EmbeddedQuery :=
  JoinSpec.embeddedQueries level query.joins ++
    FieldConstraints.embeddedQueries level query.conditions.entries

section Parts

variable {level : Nat}

theorem Constraint.allEmbeddedQueries_eq {constraints : List Constraint} :
    Constraint.allEmbeddedQueries level constraints =
      constraints.flatMap (Constraint.embeddedQueries level) := by
  induction constraints with
  | nil => rfl
  | cons constraint rest step => rw [allEmbeddedQueries, step, List.flatMap_cons]

theorem FieldConstraints.embeddedQueries_eq {entries : List FieldConstraints} :
    FieldConstraints.embeddedQueries level entries =
      entries.flatMap fun entry =>
        entry.constraints.flatMap (Constraint.embeddedQueries level) := by
  induction entries with
  | nil => rfl
  | cons entry rest step =>
      rcases entry with ⟨field, constraints⟩
      rw [embeddedQueries, step, Constraint.allEmbeddedQueries_eq, List.flatMap_cons]

theorem JoinSpec.embeddedQueries_eq {joins : List JoinSpec} :
    JoinSpec.embeddedQueries level joins =
      joins.flatMap fun join => FieldConstraints.embeddedQueries level join.entries := by
  induction joins with
  | nil => rfl
  | cons join rest step =>
      rcases join with ⟨table, aliasName, via, _ | ⟨⟨entries⟩⟩, targetKey⟩
      · rw [embeddedQueries, step]
        rfl
      · rw [embeddedQueries, step]
        rfl

theorem Constraint.embeddedQueries_of_plain {constraint : Constraint} (plain : constraint.Plain) :
    constraint.embeddedQueries level = [] := by
  cases constraint with
  | inQuery negated query => exact absurd rfl (plain negated query)
  | _ => rfl

/-- The join that an embedded query may need for its column has no constraints. -/
theorem Subquery.embeddedQueries_asQuery
    (config : Config) (subquery : Subquery) (implied : Option String) :
    (subquery.asQuery config implied).embeddedQueries level = subquery.embeddedQueries level := by
  rcases subquery with ⟨table, select, ⟨entries⟩, joins, skip, limit⟩
  rw [embeddedQueries, Query.embeddedQueries]
  cases implied with
  | none => simp [asQuery]
  | some aliasName =>
      simp [asQuery, JoinSpec.embeddedQueries_eq, JoinSpec.implied, JoinSpec.entries,
        FieldConstraints.embeddedQueries]

end Parts

/-! ## The form of an embedded SELECT -/

/-- The table that a join is on, under its alias. -/
def JoinSpec.tableRef (join : JoinSpec) : TableRef := ⟨join.table, some join.aliasName⟩

/-- The node of the join for an alias that an embedded query does not declare. -/
def impliedNode (config : Config) (reference aliasName : String) : Join :=
  ⟨⟨aliasName, some aliasName⟩,
    .compare (.column ⟨some reference, aliasName⟩) .equal
      (.column ⟨some aliasName, config.identifierKey⟩)⟩

/-- The tables that the SELECT of an embedded query joins. -/
structure Subquery.JoinedIn (config : Config) (query : Subquery) (select : Select) : Prop where
  /-- Usually they are the declared ones. -/
  declared :
    (∀ aliasName, QualifiedBy query.select aliasName →
        aliasName ∈ query.joins.map JoinSpec.aliasName) →
      select.joins.map Join.table = query.joins.map JoinSpec.tableRef
  /-- The selected column can be read through one more join, which comes last. -/
  implied :
    ∀ aliasName, QualifiedBy query.select aliasName →
      aliasName ∉ query.joins.map JoinSpec.aliasName →
      ∃ nodes, nodes.map Join.table = query.joins.map JoinSpec.tableRef ∧
        select.joins = nodes ++ [impliedNode config select.source.reference aliasName]
  /-- In any case, one join has the alias that the selected column is read through. -/
  once :
    ∀ aliasName, QualifiedBy query.select aliasName →
      (select.joins.map fun join => join.table.aliasName).count (some aliasName) = 1

/-- The form of the SELECT that an embedded query becomes. -/
structure EmbeddedQuery.Becomes
    (config : Config) (embedded : EmbeddedQuery) (inner : EmbeddedSelect) : Prop where
  negated : inner.negated = embedded.negated
  level : inner.around.length = embedded.level
  inside : 1 ≤ embedded.level
  shallow : embedded.level ≤ config.maxSubqueryDepth
  source :
    ∃ number, inner.select.source =
      ⟨embedded.query.table, some (aliasText embedded.level number)⟩
  /-- The only column is the selected one, which belongs to the query's table if unqualified. -/
  projection :
    ∃ path, ColumnPath.parse embedded.query.select = .ok path ∧
      inner.select.projection =
        .columns [⟨⟨some (path.qualifier.getD inner.select.source.reference), path.name⟩, none⟩]
  joins : embedded.query.JoinedIn config inner.select
  order : inner.select.order = []
  limit : inner.select.limit = ⟨embedded.query.skip, embedded.query.limit⟩

section Compiled

variable {config : Config} {related : ConstraintRelation} {depth : Nat} {enclosing : List String}
variable {subquery : Subquery} {implied : Option String} {select : Select}

/-- The tables of compiled joins are those of the joins. -/
theorem JoinSpec.tables_eq {names : Names} {joins : List JoinSpec} {nodes : List Join}
    (pairs : List.Forall₂
      (fun join node => ∃ before, JoinSpec.Compiled config related depth names before join node)
      joins nodes) :
    nodes.map Join.table = joins.map tableRef := by
  symm
  rw [← List.forall₂_eq_eq_eq, List.forall₂_map_left_iff, List.forall₂_map_right_iff]
  apply pairs.imp
  rintro join node ⟨_, compiled⟩
  exact compiled.table.symm

/-- The join for an undeclared alias is over the column of that name in the query's own table. -/
theorem JoinSpec.implied_node {names : Names} {earlier : List String} {aliasName : String}
    {node : Join}
    (compiled :
      (JoinSpec.implied config aliasName).Compiled config related depth names earlier node) :
    node = impliedNode config names.primary aliasName := by
  rcases compiled.condition with ⟨via, path, given, -, read, -, -, condition⟩ | ⟨_, none, -⟩
  · cases given
    have bare := (ColumnPath.qualifier_eq_none_iff read).2 compiled.identifier.no_dot
    have written := (ColumnPath.parse_eq_ok read).2.2
    simp only [bare] at written
    rcases node with ⟨table, _⟩
    cases compiled.table
    cases condition
    simp [impliedNode, implied, bare, ← written]
  · cases none

/-- Without an undeclared alias there is no more join, and for one there is a join of that name. -/
theorem undeclaredAlias?_cases {path : String} {declared : List String} {implied : Option String}
    (read : undeclaredAlias? path declared = .ok implied) :
    ((∀ aliasName, QualifiedBy path aliasName → aliasName ∈ declared) → implied = none) ∧
      ∀ aliasName, QualifiedBy path aliasName → aliasName ∉ declared → implied = some aliasName := by
  rcases undeclaredAlias?_eq_ok.1 read with ⟨parsed, written, rfl⟩
  constructor
  · intro known
    refine Option.filter_eq_none_iff.2 fun aliasName qualifies => ?_
    simpa using known aliasName ⟨parsed, written, qualifies⟩
  · rintro aliasName ⟨other, again, qualifies⟩ unknown
    cases again.symm.trans written
    simpa [Option.filter_eq_some_iff, qualifies] using unknown

theorem Query.Compiled.joinedIn
    (read : undeclaredAlias? subquery.select (subquery.joins.map JoinSpec.aliasName) = .ok implied)
    (compiled : (subquery.asQuery config implied).Compiled config related depth enclosing select) :
    subquery.JoinedIn config select := by
  rcases undeclaredAlias?_cases read with ⟨known, unknown⟩
  have pairs := JoinSpec.compiled_pairs compiled.joins
  have tables := JoinSpec.tables_eq pairs
  refine ⟨fun declared => ?_, fun aliasName qualified undeclared => ?_,
    fun aliasName qualified => ?_⟩
  · cases known declared
    simpa [Subquery.asQuery] using tables
  · cases unknown aliasName qualified undeclared
    rcases forall₂_append_left.1 pairs with ⟨nodes, _, declared, last, joins⟩
    rcases List.forall₂_cons_left_iff.1 last with ⟨node, _, ⟨_, implied⟩, ⟨⟩, rfl⟩
    exact ⟨nodes, JoinSpec.tables_eq declared, by rw [joins, JoinSpec.implied_node implied]; rfl⟩
  · have aliases :
        (select.joins.map fun join => join.table.aliasName) =
          ((subquery.asQuery config implied).joins.map JoinSpec.aliasName).map some := by
      simpa [Function.comp_def, JoinSpec.tableRef] using congrArg (List.map TableRef.aliasName) tables
    have distinct := (checkAliases_eq_ok.1 compiled.aliases).2
    rw [aliases]
    refine List.count_eq_one_of_mem (distinct.map fun _ _ => Option.some.inj)
      (List.mem_map_of_mem ?_)
    by_cases declared : aliasName ∈ subquery.joins.map JoinSpec.aliasName
    · exact List.map_subset _ (List.subset_append_left _ _) declared
    · cases unknown aliasName qualified declared
      simp [Subquery.asQuery]

theorem Query.Compiled.becomes {negated : Bool} {around : List Select}
    (within : around.length = depth + 1)
    (read : undeclaredAlias? subquery.select (subquery.joins.map JoinSpec.aliasName) = .ok implied)
    (compiled : (subquery.asQuery config implied).Compiled config related (depth + 1) enclosing
      select) :
    EmbeddedQuery.Becomes config ⟨depth + 1, negated, subquery⟩ ⟨around, negated, select⟩ where
  negated := rfl
  level := within
  inside := Nat.le_add_left 1 depth
  shallow := compiled.shallow
  source := compiled.source
  projection := by
    rcases projection_of_frame compiled.projection with ⟨none, -⟩ | ⟨items, -, listed, each⟩
    · cases none
    · rcases List.forall₂_cons_left_iff.1 each with ⟨⟨_, _⟩, _, ⟨resolved, rfl⟩, ⟨⟩, rfl⟩
      rcases Names.resolveIn_eq_ok.1 resolved with ⟨path, parsed, -, rfl⟩
      exact ⟨path, parsed, listed⟩
  joins := compiled.joinedIn read
  order := List.forall₂_nil_left_iff.1 (order_of_frame compiled.order)
  limit := compiled.limit

/-- The queries in a constraint became the SELECTs in its condition, wherever this stands. -/
def Constraint.EmbedsIts (config : Config) : ConstraintRelation :=
  fun depth _ _ _ constraint expr => ∀ around : List Select, around.length = depth + 1 →
    List.Forall₂ (EmbeddedQuery.Becomes config) (constraint.embeddedQueries (depth + 1))
      (expr.embeddedSelects around)

theorem ConditionsCompiled.embedded {names : Names} {owner : String}
    {entries : List FieldConstraints} {groups : List (List Expr)} {around : List Select}
    (within : around.length = depth + 1)
    (compiled : ConditionsCompiled (Constraint.EmbedsIts config) depth names owner entries groups) :
    List.Forall₂ (EmbeddedQuery.Becomes config)
      (FieldConstraints.embeddedQueries (depth + 1) entries)
      (groups.flatMap fun group => group.flatMap (Expr.embeddedSelects around)) := by
  rw [FieldConstraints.embeddedQueries_eq]
  refine List.rel_flatMap compiled fun entry group fields => ?_
  exact List.rel_flatMap fields fun constraint expr embeds => embeds around within

theorem JoinSpec.Compiled.embedded {names : Names} {earlier : List String} {join : JoinSpec}
    {node : Join} {around : List Select} (within : around.length = depth + 1)
    (compiled : join.Compiled config (Constraint.EmbedsIts config) depth names earlier node) :
    List.Forall₂ (EmbeddedQuery.Becomes config)
      (FieldConstraints.embeddedQueries (depth + 1) join.entries)
      (node.condition.embeddedSelects around) := by
  rcases compiled.condition with
    ⟨_, _, -, none, -, -, -, condition⟩ | ⟨groups, -, -, -, condition, constraints⟩
  · rw [none, condition]
    exact .nil
  · rw [condition, (Expr.embeddedSelects_gathered around).onCondition]
    exact constraints.embedded within

theorem Query.Compiled.embedded {query : Query} {around : List Select}
    (within : around.length = depth)
    (compiled : query.Compiled config (Constraint.EmbedsIts config) depth enclosing select) :
    List.Forall₂ (EmbeddedQuery.Becomes config) (query.embeddedQueries (depth + 1))
      (select.embeddedSelects around) := by
  have inside : (select :: around).length = depth + 1 := congrArg (· + 1) within
  rcases compiled.condition with ⟨groups, condition, constraints⟩
  rw [Query.embeddedQueries, JoinSpec.embeddedQueries_eq, Select.embeddedSelects_eq, condition,
    (Expr.embeddedSelects_gathered (select :: around)).whereClause]
  refine List.rel_append ?_ (constraints.embedded inside)
  refine List.rel_flatMap (JoinSpec.compiled_pairs compiled.joins) ?_
  rintro join node ⟨_, joined⟩
  exact joined.embedded inside

end Compiled

/-! ## Statements -/

theorem Constraint.embedsIts_cases (config : Config) :
    CompileCases config (Constraint.EmbedsIts config) fun depth enclosing query select =>
      query.Compiled config (Constraint.EmbedsIts config) depth enclosing select where
  compare _ _ _ := .nil
  matching resolved _ _ := by
    rcases patternSubject_eq_ok resolved with ⟨column, -, rfl⟩ | ⟨-, columns, -, rfl⟩ <;> exact .nil
  present _ _ _ := .nil
  inList _ around _ := by
    unfold Expr.inListOrTruth
    split <;> exact .nil
  inQuery _ read compiled around within := by
    rw [Constraint.embeddedQueries, ← Subquery.embeddedQueries_asQuery config _ _]
    exact .cons (compiled.becomes within read) (compiled.embedded within)
  query compiled := compiled

/--
The SELECTs inside a compiled statement are those of the queries in the
constraints of the query, one for one, and each has the form that its query
determines.
-/
theorem embedded_queries_shape {config : Config} {query : Query} {select : Select}
    (compiled : (query.statement config).1 = .ok select) :
    List.Forall₂ (EmbeddedQuery.Becomes config) (query.embeddedQueries 1)
      (select.embeddedSelects []) :=
  ((Constraint.embedsIts_cases config).statement compiled).embedded rfl

/-- The posts with a comment of somebody who follows the author's groups, but of no suspended one. -/
def followedPosts : Query :=
  { table := "posts"
    joins := [⟨"comments", "comment", none,
      some ⟨[⟨"author", [.inQuery true ⟨"suspensions", "member.user", .empty,
        [⟨"members", "member", some "member_id", none, none⟩], none, none⟩]⟩]⟩, none⟩]
    conditions := ⟨[⟨"comment.author", [.inQuery false ⟨"follows", "user",
      ⟨[⟨"group", [.inQuery false ⟨"members", "group.name", .empty, [], none, some 10⟩]⟩]⟩,
      [], none, none⟩]⟩]⟩ }

/-- The SELECT of `followedPosts`; the innermost query reads its column through a join of its own. -/
def followedPostsSelect : Select :=
  ⟨.all, ⟨"posts", none⟩,
    [⟨⟨"comments", some "comment"⟩,
      .group (.inSelect (.column ⟨some "comment", "author"⟩)
        ⟨.columns [⟨⟨some "member", "user"⟩, none⟩], ⟨"suspensions", some "sq1_0"⟩,
          [⟨⟨"members", some "member"⟩,
            .compare (.column ⟨some "sq1_0", "member_id"⟩) .equal
              (.column ⟨some "member", "id"⟩)⟩],
          none, [], ⟨none, none⟩⟩
        true)⟩],
    some (.inSelect (.column ⟨some "comment", "author"⟩)
      ⟨.columns [⟨⟨some "sq1_1", "user"⟩, none⟩], ⟨"follows", some "sq1_1"⟩, [],
        some (.inSelect (.column ⟨some "sq1_1", "group"⟩)
          ⟨.columns [⟨⟨some "group", "name"⟩, none⟩], ⟨"members", some "sq2_0"⟩,
            [⟨⟨"group", some "group"⟩,
              .compare (.column ⟨some "sq2_0", "group"⟩) .equal (.column ⟨some "group", "id"⟩)⟩],
            none, [], ⟨none, some 10⟩⟩
          false),
        [], ⟨none, none⟩⟩
      false),
    [], ⟨none, none⟩⟩

theorem embedded_queries_shape_followedPosts :
    (followedPosts.statement {}).1 = .ok followedPostsSelect ∧
      (followedPosts.embeddedQueries 1).map EmbeddedQuery.level = [1, 1, 2] ∧
      List.Forall₂ (EmbeddedQuery.Becomes {}) (followedPosts.embeddedQueries 1)
        (followedPostsSelect.embeddedSelects []) :=
  ⟨by cbv, rfl, embedded_queries_shape (by cbv)⟩

end SqlScribe
