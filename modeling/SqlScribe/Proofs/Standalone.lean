import SqlScribe.Proofs.Acceptance
import SqlScribe.Proofs.Compile.Parallel

/-!
# Embedded queries and queries of their own

A query that has a statement of its own can be embedded anywhere, as long as it
is not nested too deep: `Query.Accepted.embed`.  It then becomes the SELECT that
it has on its own, where the table gets a generated alias and generated aliases
become other ones.
-/

namespace SqlScribe

open Compile
open Checked

/-! ## Acceptance in another place -/

variable {config : Config} {depth level : Nat} {scope visible enclosing around : List String}
variable {field : String} {written : String → Prop}

theorem PathInScope.mono {path : String} (inScope : PathInScope scope path)
    (known : ∀ qualifier, QualifiedBy path qualifier → qualifier ∈ scope → qualifier ∈ visible) :
    PathInScope visible path := by
  rcases inScope with ⟨parsed, read, qualified⟩
  exact ⟨parsed, read, fun qualifier member =>
    known qualifier ⟨parsed, read, member⟩ (qualified qualifier member)⟩

/-- An accepted constraint is accepted wherever its qualifiers are known and it is not too deep. -/
def Constraint.Movable
    (config : Config) (written : String → Prop) (constraint : Constraint) : Prop :=
  ∀ {depth level : Nat} {scope visible : List String} {field : String},
    constraint.Qualifiers config written field →
    (∀ name, written name → name ∈ scope → name ∈ visible) →
    ¬ constraint.Exceeds config level →
    constraint.Accepted config depth scope field → constraint.Accepted config level visible field

/--
An accepted query is accepted as an embedded one wherever the names around it
are known and it is not too deep, if nobody refers to its table by name.
-/
theorem Query.Accepted.embed {query : Query}
    (movable : ∀ constraint ∈ query.constraints, constraint.Movable config written)
    (qualifiers : query.Qualifiers config written)
    (own : ∀ name ∈ query.ownNames, ¬ written name)
    (known : ∀ name, written name → name ∈ enclosing → name ∈ around)
    (shallow : ¬ query.Exceeds config level)
    (accepted : query.Accepted config depth enclosing) :
    { query with embedded := true }.Accepted config level around := by
  rcases accepted with ⟨-, table, aliases, distinct, -, joins, selection, -, conditions, sort⟩
  have inScope : ∀ name, written name → name ∈ query.scope enclosing →
      name ∈ Query.scope { query with embedded := true } around := by
    intro name free member
    rcases List.mem_append.1 member with inner | outer
    · rcases List.mem_append.1 inner with primary | joined
      · exact absurd free (own name primary)
      · exact List.mem_append_left _ (List.mem_append_right _ joined)
    · exact List.mem_append_right _ (known name free outer)
  have moved {constraint : Constraint} {field : String} (member : constraint ∈ query.constraints)
      {scope visible : List String}
      (qualified : constraint.Qualifiers config written field)
      (inScope : ∀ name, written name → name ∈ scope → name ∈ visible)
      (accepted : constraint.Accepted config depth scope field) :
      constraint.Accepted config level visible field :=
    movable constraint member qualified inScope
      (fun exceeds => shallow (.of_constraint member exceeds)) accepted
  refine .query ?_ table aliases distinct (fun standing => ?_) ?_ ?_ (fun standing => ?_) ?_ ?_
  · exact Nat.le_of_not_lt fun deep => shallow ⟨0, query, .self, deep⟩
  · cases standing
  · intro entry member
    have present := (JoinSpec.mem_withEarlier member).1
    rcases joins entry member with
      ⟨identifier, given, bare, key, path⟩ | ⟨identifier, free, some, keyless, constraints⟩
    · refine .via identifier given bare key (path.mono fun qualifier qualified inside => ?_)
      rcases List.mem_append.1 inside with primary | earlier
      · exact absurd (qualifiers.via present given qualified) (own qualifier primary)
      · exact earlier
    · refine .on identifier free some keyless fun field inside constraint within => ?_
      refine moved (mem_constraints_of_join present inside within)
        (qualifiers.joinCondition present inside within) ?_ (constraints field inside _ within)
      intro name free member
      rcases List.mem_append.1 member with inner | outer
      · rcases List.mem_append.1 inner with primary | joined
        · exact absurd free (own name primary)
        · exact List.mem_append_left _ (List.mem_append_right _ joined)
      · exact List.mem_append_right _ (known name free outer)
  · exact fun item member => (selection item member).mono fun qualifier qualified =>
      inScope qualifier (qualifiers.selection member qualified)
  · cases standing
  · intro entry present constraint inside
    exact moved (mem_constraints_of_condition present inside)
      (qualifiers.condition present inside) inScope (conditions entry present constraint inside)
  · exact fun key member => (sort key member).mono fun qualifier qualified =>
      inScope qualifier (qualifiers.sort member qualified)

theorem Constraint.movable (constraint : Constraint) : constraint.Movable config written := by
  have moved {scope visible : List String} {field : String} {constraint : Constraint}
      (qualifiers : constraint.Qualifiers config written field)
      (known : ∀ name, written name → name ∈ scope → name ∈ visible)
      (paths : ∀ path ∈ constraint.paths config field, PathInScope scope path) :
      ∀ path ∈ constraint.paths config field, PathInScope visible path :=
    fun path member => (paths path member).mono fun qualifier qualified =>
      known qualifier (qualifiers.own path member qualifier qualified)
  induction constraint using Constraint.query_induction config with
  | plain constraint plain =>
      rintro depth level scope visible field qualifiers known - ⟨paths, -⟩
      exact .constraint (moved qualifiers known paths) fun negated subquery inside =>
        absurd inside (plain negated subquery)
  | inQuery negated subquery inside =>
      rintro depth level scope visible field qualifiers known shallow ⟨paths, inner⟩
      refine .constraint (moved qualifiers known paths) ?_
      rintro _ _ ⟨⟩
      exact Query.Accepted.embed inside (qualifiers.inner negated subquery rfl) (by
        rintro name ⟨⟩) known (fun exceeds => shallow ⟨negated, subquery, rfl, exceeds⟩)
        (inner negated subquery rfl)

/-! ## The query on its own -/

/-- An embedded query as one that stands in no other query. -/
def Subquery.standalone (config : Config) (subquery : Subquery) : Query :=
  { subquery.completed config with embedded := false }

variable {subquery : Subquery}

/-- The queries inside a query do not depend on where it stands itself. -/
theorem Subquery.qualifiers_standalone
    (qualifiers : (subquery.completed config).Qualifiers config written) :
    (subquery.standalone config).Qualifiers config written :=
  .of_inner (Query.Throughout.own qualifiers) fun _ _ member =>
    Query.Throughout.inner qualifiers member

theorem selectItems_unnamed {names : Names} {used : List String} {selection : List Selection}
    {items : List SelectItem} (read : selectItems names false used selection = .ok items) :
    selectItems names true [] selection =
      .ok (items.map fun item => { item with output := none }) := by
  induction selection generalizing used items with
  | nil =>
      cases read
      rfl
  | cons first rest step =>
      simp only [selectItems, bind_eq_ok, Bool.false_eq_true, if_false, checkName_eq_ok] at read
      rcases read with ⟨column, resolved, output, -, rest⟩
      split at rest
      · simp at rest
      · simp only [bind_eq_ok, pure_eq_ok] at rest
        rcases rest with ⟨others, read, rfl⟩
        simp [selectItems, resolved, step read, bind, Except.bind, pure, Except.pure]

/-- Apart from its table, the query becomes the same SELECT as if it were embedded. -/
theorem Subquery.body_of_standalone {enclosing : List String} {select : Select}
    {before after : CompileState}
    (body : (subquery.standalone config).Body config depth enclosing select before after) :
    (subquery.completed config).Body config depth enclosing select.unnamed before after := by
  rcases body with ⟨joined, groups, joins, projected, conditions⟩
  refine ⟨joined, groups, joins, ?_, conditions⟩
  have listed : (selectItems ((subquery.standalone config).namesIn enclosing select) false []
      [.column subquery.select]).map .columns = .ok select.projection := projected
  show (selectItems ((subquery.standalone config).namesIn enclosing select) true []
      [.column subquery.select]).map .columns = .ok select.projection.unnamed
  rw [map_eq_ok] at listed ⊢
  rcases listed with ⟨items, read, given⟩
  exact ⟨_, selectItems_unnamed read, by rw [given, Projection.unnamed]⟩

/-- The qualifiers that the renaming of an embedded query leaves alone. -/
def Subquery.Fixed (subquery : Subquery) (qualifier : String) : Prop :=
  qualifier ≠ subquery.table ∧ ¬ IsGeneratedAlias qualifier

theorem Subquery.accepted_embedded
    (qualifiers : (subquery.completed config).Qualifiers config subquery.Fixed)
    (shallow : ¬ (subquery.completed config).Exceeds config level)
    (accepted : (subquery.standalone config).Accepted config depth []) :
    (subquery.completed config).Accepted config level around := by
  have inner : ¬ (subquery.standalone config).Exceeds config level := by
    rintro ⟨deeper, found, nests, deep⟩
    cases nests with
    | self => exact shallow ⟨0, _, .self, deep⟩
    | inside member nests => exact shallow ⟨_, found, .inside member nests, deep⟩
  refine Query.Accepted.embed (fun constraint _ => constraint.movable)
    (qualifiers_standalone qualifiers) ?_ (by simp) inner accepted
  intro name member fixed
  exact fixed.1 (List.mem_singleton.1 member)

/-- The SELECT of an embedded query is the one of the query on its own with other aliases. -/
theorem Subquery.exists_renaming {before after start finish : CompileState}
    {standalone select : Select}
    (renamable : (subquery.completed config).Renamable config subquery.Fixed)
    (one : Yields ((subquery.standalone config).compileAt config depth enclosing) before
      standalone after)
    (two : Yields ((subquery.completed config).compileAt config level around) start
      select finish) :
    ∃ rename, Renaming rename (subquery.table :: standalone.fromAliases) ∧
      rename subquery.table = select.source.reference ∧
      select = (standalone.renamed rename).unnamed := by
  have own := Query.takes_fromAliases one
  have other := Query.takes_fromAliases two
  rcases Query.exists_body one with ⟨_, _, sourced, body⟩
  rcases Query.exists_body two with ⟨_, _, sourcedToo, bodyToo⟩
  have plain : ¬ IsGeneratedAlias subquery.table :=
    renamable.tableNames.own _ List.mem_cons_self
  have source : standalone.source = ⟨subquery.table, none⟩ := Query.source_of_standing rfl sourced
  rcases Query.source_of_embedded rfl sourcedToo with ⟨aliasName, sourceToo, generated⟩
  have visible : standalone.unnamed.source.reference ∉
      (subquery.completed config).joins.map JoinSpec.aliasName :=
    QueryFrame.reference_not_mem_aliases sourced
  rcases (body_of_standalone body).alike (fun constraint _ => constraint.parallel) renamable visible
    bodyToo with ⟨pairs, front, back, generatedPairs, takes⟩
  -- The table on its own and the aliases inside, each with its new name.
  have domain : ((subquery.table, aliasName) :: pairs).map Prod.fst =
      subquery.table :: standalone.fromAliases := by
    rw [List.map_cons, front, Select.fromAliases_eq, source]
    rfl
  have image : ((subquery.table, aliasName) :: pairs).map Prod.snd = select.fromAliases := by
    rw [List.map_cons, back, Select.fromAliases_eq, sourceToo]
    rfl
  have distinct : (subquery.table :: standalone.fromAliases).Nodup :=
    List.nodup_cons.2 ⟨fun clash => plain (own.generated _ clash), own.distinct⟩
  have generatedAll : ∀ pair ∈ (subquery.table, aliasName) :: pairs, IsGeneratedAlias pair.2 :=
    fun pair member => other.generated _ (image ▸ List.mem_map_of_mem member)
  rcases Renaming.exists_of_pairs (domain ▸ distinct) (image ▸ other.distinct) generatedAll with
    ⟨rename, oneToOne, respects⟩
  rw [domain] at oneToOne
  rw [List.forall_mem_cons] at respects
  have fixes : ∀ name, subquery.Fixed name → rename name = name := by
    intro name fixed
    refine oneToOne.fixed name fun member => ?_
    rcases List.mem_cons.1 member with table | inside
    · exact fixed.1 table
    · exact fixed.2 (own.generated name inside)
  have owner : rename standalone.source.reference = select.source.reference := by
    rw [source, sourceToo]
    exact respects.1
  have table : standalone.source.renamed rename = select.source := by
    have other : aliasName ≠ subquery.table := fun same => plain (same ▸ generated)
    have reference : (⟨subquery.table, none⟩ : TableRef).reference = subquery.table := rfl
    rw [source, sourceToo, TableRef.renamed, reference, respects.1, if_neg other]
    rfl
  refine ⟨rename, oneToOne, ?_, ?_⟩
  · rw [← owner, source]
    rfl
  · rw [takes rename ⟨fixes, owner⟩ respects.2, Select.unnamed_renamed, ← table]
    rfl

/--
A query that has a statement of its own can be embedded wherever it is not
nested too deep.  There it becomes the same SELECT, without names for what it
returns, up to a renaming of its table and of generated aliases.
-/
theorem embedded_like_standalone
    {config : Config} {subquery : Subquery} {standalone : Select}
    (qualifiers : (subquery.completed config).Qualifiers config subquery.Fixed)
    (tableNames : (subquery.completed config).TableNames config (¬ IsGeneratedAlias ·))
    (compiled : ((subquery.standalone config).statement config).1 = .ok standalone)
    {depth : Nat} {names : Names} {owner field : String} {negated : Bool} {column : ColumnRef}
    {before : CompileState}
    (resolved : names.resolveIn owner field = .ok column)
    (shallow : ¬ (subquery.completed config).Exceeds config (depth + 1)) :
    ∃ select after rename,
      Yields (constraintExpr config depth names owner field (.inQuery negated subquery)) before
        (.inSelect (.column column) select negated) after ∧
      Renaming rename (subquery.table :: standalone.fromAliases) ∧
      rename subquery.table = select.source.reference ∧
      select = (standalone.renamed rename).unnamed := by
  have written : (subquery.completed config).Qualifiers config (¬ IsGeneratedAlias ·) :=
    fun _ inner nests path member qualifier qualified =>
      (qualifiers _ inner nests path member qualifier qualified).2
  rcases Query.statement_eq_ok.1 compiled with ⟨_, yields⟩
  have accepted : (subquery.standalone config).Accepted config 0 [] :=
    (Query.statement_succeeds_iff (Subquery.qualifiers_standalone written)).1 ⟨_, compiled⟩
  have moved : (subquery.completed config).Accepted config (depth + 1) names.all :=
    Subquery.accepted_embedded qualifiers shallow accepted
  have succeeds :
      Succeeds ((subquery.completed config).compileAt config (depth + 1) names.all) before :=
    (Query.compileAt_succeeds_iff (.refl _) written).2 moved
  rcases succeeds with ⟨select, after, embedded⟩
  rcases Subquery.exists_renaming ⟨qualifiers, tableNames⟩ yields embedded with
    ⟨rename, oneToOne, table, same⟩
  exact ⟨select, after, rename,
    Constraint.yields_inQuery.2 ⟨column, select, resolved, embedded, rfl⟩, oneToOne, table, same⟩

/-- The teams of active users who have logged in. -/
def seenTeams : Subquery :=
  ⟨"users", "team.id",
    ⟨[⟨"active", [.present true]⟩,
      ⟨"id", [.inQuery false ⟨"logins", "user_id", .empty, [], none, none⟩]⟩]⟩,
    [], none, none⟩

/-- The SELECT of `seenTeams` on its own. -/
def seenTeamsSelect : Select :=
  ⟨.columns [⟨⟨some "team", "id"⟩, some "team_id"⟩], ⟨"users", none⟩,
    [⟨⟨"team", some "team"⟩,
      .compare (.column ⟨some "users", "team"⟩) .equal (.column ⟨some "team", "id"⟩)⟩],
    some (.and
      [.nullCheck (.column ⟨some "users", "active"⟩) false,
        .inSelect (.column ⟨some "users", "id"⟩)
          ⟨.columns [⟨⟨some "sq1_0", "user_id"⟩, none⟩], ⟨"logins", some "sq1_0"⟩, [], none, [],
            ⟨none, none⟩⟩
          false]),
    [], ⟨none, none⟩⟩

/-- There is one query inside `seenTeams`. -/
theorem seenTeams_nests {level : Nat} {inner : Query}
    (nests : (seenTeams.completed {}).Nests {} level inner) :
    (level = 0 ∧ inner = seenTeams.completed {}) ∨
      (level = 1 ∧ inner = Subquery.completed {} (.column "logins" "user_id")) := by
  cases nests with
  | self => exact .inl ⟨rfl, rfl⟩
  | inside member nests =>
      rw [Subquery.constraints_completed] at member
      obtain ⟨rfl, rfl⟩ : _ = false ∧ _ = Subquery.column "logins" "user_id" := by
        simpa [seenTeams, Subquery.constraints, Subquery.column] using member
      cases nests with
      | self => exact .inr ⟨rfl, rfl⟩
      | inside member nests =>
          rw [Subquery.constraints_completed] at member
          cases member

theorem embedded_like_standalone_seenTeams :
    ((seenTeams.standalone {}).statement {}).1 = .ok seenTeamsSelect ∧
      ∃ select after rename,
        Yields (constraintExpr {} 0 ⟨"users", [], []⟩ "users" "team_id" (.inQuery false seenTeams))
          ⟨.empty, []⟩ (.inSelect (.column ⟨some "users", "team_id"⟩) select false) after ∧
        Renaming rename ["users", "sq1_0"] ∧ rename "users" = select.source.reference ∧
        select = (seenTeamsSelect.renamed rename).unnamed := by
  have compiled : ((seenTeams.standalone {}).statement {}).1 = .ok seenTeamsSelect := by cbv
  have shallow : ¬ (seenTeams.completed {}).Exceeds {} 1 := by
    rintro ⟨level, inner, nests, deep⟩
    have bound : (8 : Nat) < 1 + level := deep
    rcases seenTeams_nests nests with ⟨rfl, -⟩ | ⟨rfl, -⟩ <;> omega
  refine ⟨compiled, embedded_like_standalone ?_ ?_ compiled (by cbv) shallow⟩
  · have others : ∀ path ∈ ["team.id", "team", "active", "id", "user_id"],
        ∀ qualifier ∈ (ColumnPath.parse path).toOption.bind ColumnPath.qualifier,
          qualifier ≠ "users" ∧ qualifier.toList.take 2 ≠ ['s', 'q'] := by
      decide
    intro level inner nests
    have listed : ∀ path ∈ inner.paths {},
        path ∈ ["team.id", "team", "active", "id", "user_id"] := by
      rcases seenTeams_nests nests with ⟨-, rfl⟩ | ⟨-, rfl⟩ <;> decide
    intro path written qualifier qualified
    rcases others path (listed path written) qualifier (qualifiedBy_iff.1 qualified) with
      ⟨different, plain⟩
    exact ⟨different, not_isGeneratedAlias plain⟩
  · have others : ∀ name ∈ ["users", "team", "logins"], name.toList.take 2 ≠ ['s', 'q'] := by decide
    intro level inner nests
    have listed : ∀ name ∈ inner.tableNames, name ∈ ["users", "team", "logins"] := by
      rcases seenTeams_nests nests with ⟨-, rfl⟩ | ⟨-, rfl⟩ <;> decide
    exact fun name written => not_isGeneratedAlias (others name (listed name written))

end SqlScribe
