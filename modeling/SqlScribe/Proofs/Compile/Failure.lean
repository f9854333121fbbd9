import SqlScribe.Proofs.Nesting

/-!
# How compilations fail

`Fails action before error` says that a compilation ends in an error.  A
sequence fails where one of its steps does, after the steps before it succeeded.

Nearly all checks of the compiler refuse what somebody wrote.  Only the one that
each query begins with complains about nesting, and this means that some query
stands deeper than the configuration allows: `Query.failsRightly`.  No check
complains about a name that cannot be quoted.
-/

namespace SqlScribe

open Compile
open Checked

/-! ## Failing compilations -/

namespace Compile

variable {α β : Type} {before : CompileState} {error : SqlError}

/-- The compilation ends in this error. -/
def Fails (action : Compile α) (before : CompileState) (error : SqlError) : Prop :=
  (outcome action before).1 = .error error

@[simp]
theorem fails_pure {value : α} : Fails (pure value) before error ↔ False := by
  show (Except.ok value : Except SqlError α) = .error error ↔ False
  simp

@[simp]
theorem fails_bind {first : Compile α} {next : α → Compile β} :
    Fails (first >>= next) before error ↔
      Fails first before error ∨
        ∃ middle state, Yields first before middle state ∧ Fails (next middle) state error := by
  simp only [Fails, Yields, outcome_bind]
  rcases outcome first before with ⟨_ | middle, state⟩ <;> simp [and_assoc]

@[simp]
theorem fails_reserve {name : String} : Fails (reserve name) before error ↔ False := by
  show (Except.ok () : Except SqlError Unit) = .error error ↔ False
  simp

@[simp]
theorem fails_report {event : Event} : Fails (report event) before error ↔ False := by
  show (Except.ok () : Except SqlError Unit) = .error error ↔ False
  simp

@[simp]
theorem fails_allocate {depth : Nat} : Fails (allocate depth) before error ↔ False := by
  show (Except.ok (before.scope.allocate depth).1 : Except SqlError String) = .error error ↔ False
  simp

@[simp]
theorem fails_reserveAll {names : List String} :
    Fails (forM names Compile.reserve : Compile PUnit) before error ↔ False := by
  induction names generalizing before with
  | nil => simp
  | cons name rest step => simp [step]

end Compile

/-! ## Checks that refuse what is written -/

/-- The error is about what was written, not about its place, its text or the database. -/
def SqlError.IsRefusal : SqlError → Prop
  | .subqueryTooDeep _ | .unquotable _ | .queryFailed _ _ => False
  | _ => True

/-- The check fails only by refusing what was written. -/
def Checked.Refuses {α : Type} (check : Except SqlError α) : Prop :=
  ∀ error, check = .error error → error.IsRefusal

namespace Checked.Refuses

variable {α β : Type}

theorem ok {value : α} : Refuses (.ok value) := fun _ => nofun

theorem raised {error : SqlError} (refusal : error.IsRefusal) :
    Refuses (throw error : Except SqlError α) := by
  rintro _ ⟨⟩
  exact refusal

theorem bind {check : Except SqlError α} {next : α → Except SqlError β}
    (first : Refuses check) (later : ∀ value, Refuses (next value)) :
    Refuses (check >>= next) := by
  cases check with
  | error cause =>
      rintro _ ⟨⟩
      exact first cause rfl
  | ok value => exact later value

theorem map {check : Except SqlError α} {change : α → β} (first : Refuses check) :
    Refuses (check.map change) := by
  cases check with
  | error cause =>
      rintro _ ⟨⟩
      exact first cause rfl
  | ok value => exact ok

/-- A check that throws on a condition, and goes on otherwise. -/
theorem guarded {condition : Prop} [Decidable condition] {error : SqlError}
    {next : Except SqlError α} (refusal : error.IsRefusal) (later : Refuses next) :
    Refuses (if condition then (throw error : Except SqlError Unit) >>= fun _ => next else next) := by
  split
  · exact bind (raised refusal) fun _ => later
  · exact later

theorem mapM {check : α → Except SqlError β} {elements : List α}
    (each : ∀ element, Refuses (check element)) : Refuses (elements.mapM check) := by
  induction elements with
  | nil => exact ok
  | cons element rest step =>
      rw [List.mapM_cons]
      exact bind (each element) fun _ => bind step fun _ => ok

variable {config : Config} {names : Names} {owner path : String}

theorem segment {whole : String} {segment : List Char} : Refuses (checkSegment whole segment) := by
  unfold checkSegment
  split
  · exact raised trivial
  · exact ok

theorem name {name : String} : Refuses (checkName name) := segment

theorem parse : Refuses (ColumnPath.parse path) := by
  unfold ColumnPath.parse
  split
  · exact bind segment fun _ => ok
  · exact bind segment fun _ => bind segment fun _ => ok
  · exact raised trivial

theorem resolveIn : Refuses (names.resolveIn owner path) := by
  refine bind parse fun parsed => ?_
  rcases parsed with ⟨_ | qualifier, name⟩
  · exact ok
  · dsimp only
    split
    · exact ok
    · exact raised trivial

theorem patternSubject {affix : Affix} :
    Refuses (patternSubject config names owner path affix) := by
  unfold SqlScribe.patternSubject
  dsimp only
  split
  · exact map (mapM fun _ => resolveIn)
  · exact map resolveIn

theorem undeclaredAlias? {declared : List String} :
    Refuses (undeclaredAlias? path declared) :=
  bind parse fun _ => ok

theorem checkAliases {used aliases : List String} : Refuses (checkAliases used aliases) := by
  induction aliases generalizing used with
  | nil => exact ok
  | cons aliasName rest step =>
      exact bind name fun _ => guarded trivial step

theorem selectItems {embedded : Bool} {used : List String} {selection : List Selection} :
    Refuses (selectItems names embedded used selection) := by
  induction selection generalizing used with
  | nil => exact ok
  | cons first rest step =>
      refine bind resolveIn fun column => ?_
      split
      · exact bind step fun _ => ok
      · exact bind name fun _ => guarded trivial (bind step fun _ => ok)

theorem projection {frame : QueryFrame} : Refuses (frame.projection names) := by
  unfold QueryFrame.projection
  split
  · exact ok
  · exact map selectItems

theorem order {frame : QueryFrame} : Refuses (frame.order names) :=
  mapM fun _ => bind resolveIn fun _ => ok

theorem joinVia
    {earlier : List String} {joined : TableRef} {targetKey : Option String} :
    Refuses (joinVia config names earlier joined path targetKey) := by
  exact bind parse fun _ => guarded trivial (bind name fun _ => ok)

end Checked.Refuses

/-! ## Where nesting is too deep -/

/-- A query at this depth, or one inside it, stands deeper than is allowed. -/
def Query.Exceeds (config : Config) (depth : Nat) (query : Query) : Prop :=
  ∃ level inner, query.Nests config level inner ∧ config.maxSubqueryDepth < depth + level

/-- The constraint holds a query that stands deeper than is allowed. -/
def Constraint.Exceeds (config : Config) (depth : Nat) (constraint : Constraint) : Prop :=
  ∃ negated subquery, constraint = .inQuery negated subquery ∧
    (subquery.completed config).Exceeds config (depth + 1)

theorem Query.Exceeds.of_constraint
    {config : Config} {depth : Nat} {query : Query} {constraint : Constraint}
    (member : constraint ∈ query.constraints) (exceeds : constraint.Exceeds config depth) :
    query.Exceeds config depth := by
  rcases exceeds with ⟨negated, subquery, rfl, level, inner, nests, deep⟩
  exact ⟨level + 1, inner, .inside member nests, by omega⟩

/-! ## Justified failures -/

/-- The compilation fails by refusing something, or by complaining about nesting with a reason. -/
def Compile.FailsRightly {α : Type} (config : Config) (reason : Prop) (action : Compile α) : Prop :=
  ∀ before error, Fails action before error →
    error.IsRefusal ∨ (error = .subqueryTooDeep config.maxSubqueryDepth ∧ reason)

namespace Compile.FailsRightly

variable {α β : Type} {config : Config} {reason : Prop}

theorem of_never {action : Compile α} (never : ∀ before error, ¬ Fails action before error) :
    FailsRightly config reason action :=
  fun before error fails => absurd fails (never before error)

theorem pure {value : α} : FailsRightly config reason (Pure.pure value) :=
  of_never (by simp)

theorem lift {check : Except SqlError α} (refuses : Refuses check) :
    FailsRightly config reason (liftM check) :=
  fun _ error fails => .inl (refuses error fails)

theorem raised {error : SqlError} (refusal : error.IsRefusal) :
    FailsRightly config reason (throw error : Compile α) :=
  lift (Refuses.raised refusal)

theorem tooDeep (deep : reason) :
    FailsRightly config reason
      (throw (.subqueryTooDeep config.maxSubqueryDepth) : Compile α) := by
  rintro before _ ⟨⟩
  exact .inr ⟨rfl, deep⟩

theorem bind {first : Compile α} {next : α → Compile β} (own : FailsRightly config reason first)
    (later : ∀ middle, (∃ before state, Yields first before middle state) →
      FailsRightly config reason (next middle)) :
    FailsRightly config reason (first >>= next) := by
  intro before error fails
  rcases fails_bind.1 fails with head | ⟨middle, state, yields, tail⟩
  · exact own before error head
  · exact later middle ⟨before, state, yields⟩ state error tail

theorem bind_lift {check : Except SqlError α} {next : α → Compile β} (refuses : Refuses check)
    (later : ∀ value, check = .ok value → FailsRightly config reason (next value)) :
    FailsRightly config reason (liftM check >>= next) :=
  bind (lift refuses) fun value ⟨_, _, yields⟩ => later value (yields_lift.1 yields).1

/-- A reason may be replaced by another one that follows from it. -/
theorem because {action : Compile α} {other : Prop} (own : FailsRightly config reason action)
    (follows : reason → other) : FailsRightly config other action :=
  fun before error fails => (own before error fails).imp_right (And.imp_right follows)

end Compile.FailsRightly

open Compile.FailsRightly

variable {config : Config} {depth : Nat} {names : Names} {owner field : String} {reason : Prop}

/-- A query begins by looking at its own depth. -/
theorem QueryFrame.failsRightly_source {frame : QueryFrame} :
    FailsRightly config (config.maxSubqueryDepth < depth) (frame.source config depth) := by
  unfold QueryFrame.source
  dsimp only
  by_cases deep : config.maxSubqueryDepth < depth
  · rw [if_pos deep]
    exact bind (tooDeep deep) fun _ ⟨_, _, yields⟩ => (yields_throw.1 yields).elim
  · rw [if_neg deep]
    refine bind_lift .name fun _ _ => bind_lift .checkAliases fun _ _ => ?_
    refine bind (of_never (by simp)) fun _ _ => bind (of_never (by simp)) fun _ _ => ?_
    split
    · exact bind (of_never (by simp)) fun _ _ => pure
    · exact pure

theorem failsRightly_constraintExprs {constraints : List Constraint}
    (each : ∀ constraint ∈ constraints,
      FailsRightly config reason (constraintExpr config depth names owner field constraint)) :
    FailsRightly config reason (constraintExprs config depth names owner field constraints) := by
  induction constraints with
  | nil => exact pure
  | cons constraint rest step =>
      rw [List.forall_mem_cons] at each
      exact bind each.1 fun _ _ => bind (step each.2) fun _ _ => pure

theorem failsRightly_conditionExprs {entries : List FieldConstraints}
    (each : ∀ entry ∈ entries, ∀ constraint ∈ entry.constraints,
      FailsRightly config reason (constraintExpr config depth names owner entry.field constraint)) :
    FailsRightly config reason (conditionExprs config depth names owner entries) := by
  induction entries with
  | nil => exact pure
  | cons entry rest step =>
      rw [List.forall_mem_cons] at each
      rcases entry with ⟨field, constraints⟩
      exact bind (bind (failsRightly_constraintExprs each.1) fun _ _ => pure) fun _ _ =>
        bind (step each.2) fun _ _ => pure

theorem JoinSpec.failsRightly_joinNode {earlier : List String} {join : JoinSpec}
    (each : ∀ (names : Names) (owner field : String), ∀ constraint ∈ join.constraints,
      FailsRightly config reason (constraintExpr config depth names owner field constraint)) :
    FailsRightly config reason (joinNode config depth names earlier join) := by
  rcases join with ⟨table, aliasName, via, _ | ⟨⟨entries⟩⟩, targetKey⟩
  · refine bind_lift .name fun _ _ => ?_
    cases via with
    | none => exact raised trivial
    | some via => exact lift .joinVia
  · refine bind_lift .name fun _ _ => ?_
    dsimp only
    split
    · exact lift .joinVia
    · have conditions : FailsRightly config reason
          (conditionExprs config depth { names with aliases := earlier ++ [aliasName] } aliasName
            entries) :=
        failsRightly_conditionExprs fun entry present constraint inside =>
          each _ _ _ constraint (List.mem_flatMap.2 ⟨entry, present, inside⟩)
      split
      · exact bind (raised trivial) fun _ _ => bind conditions fun _ _ => pure
      · exact bind conditions fun _ _ => pure
    · exact raised trivial

theorem failsRightly_joinNodes {earlier : List String} {joins : List JoinSpec}
    (each : ∀ (names : Names) (owner field : String),
      ∀ constraint ∈ joins.flatMap JoinSpec.constraints,
        FailsRightly config reason (constraintExpr config depth names owner field constraint)) :
    FailsRightly config reason (joinNodes config depth names earlier joins) := by
  induction joins generalizing earlier with
  | nil => exact pure
  | cons join rest step =>
      simp only [List.flatMap_cons, List.forall_mem_append] at each
      exact bind (JoinSpec.failsRightly_joinNode fun names owner field =>
        (each names owner field).1) fun _ _ =>
          bind (step fun names owner field => (each names owner field).2) fun _ _ => pure

/-- Wherever the constraint is compiled, its failure is justified. -/
def Constraint.FailsRightly (config : Config) (constraint : Constraint) : Prop :=
  ∀ {depth : Nat} {names : Names} {owner field : String},
    Compile.FailsRightly config (constraint.Exceeds config depth)
      (constraintExpr config depth names owner field constraint)

theorem Query.failsRightly_compileAt {query : Query} {enclosing : List String}
    (each : ∀ constraint ∈ query.constraints, constraint.FailsRightly config) :
    FailsRightly config (query.Exceeds config depth) (query.compileAt config depth enclosing) := by
  have inner {names : Names} {owner field : String} {constraint : Constraint}
      (member : constraint ∈ query.constraints) :
      Compile.FailsRightly config (query.Exceeds config depth)
        (constraintExpr config depth names owner field constraint) :=
    because (each constraint member) (.of_constraint member)
  unfold compileAt QueryFrame.assemble
  refine bind (because QueryFrame.failsRightly_source fun deep => ⟨0, query, .self, deep⟩)
    fun _ _ => ?_
  refine bind (failsRightly_joinNodes fun _ _ _ _ member =>
    inner (List.mem_append_right _ member)) fun _ _ => ?_
  refine bind_lift .projection fun _ _ => ?_
  refine bind (failsRightly_conditionExprs fun _ present _ inside =>
    inner (mem_constraints_of_condition present inside)) fun _ _ => ?_
  refine bind_lift .order fun _ _ => ?_
  dsimp only
  split
  · exact bind (of_never (by simp)) fun _ _ => pure
  · exact pure

theorem Constraint.failsRightly (constraint : Constraint) : constraint.FailsRightly config := by
  induction constraint using Constraint.query_induction config with
  | plain constraint plain =>
      intro depth names owner field
      cases constraint with
      | inQuery negated subquery => exact absurd rfl (plain negated subquery)
      | matching affix text => exact bind_lift .patternSubject fun _ _ => pure
      | _ => exact bind_lift .resolveIn fun _ _ => pure
  | inQuery negated subquery inside =>
      intro depth names owner field
      rw [constraintExpr, subquerySelect_eq]
      refine bind_lift .resolveIn fun _ _ => bind (bind_lift .undeclaredAlias? ?_) fun _ _ => pure
      intro implied read
      rcases undeclaredAlias?_eq_ok.1 read with ⟨path, parsed, -⟩
      cases read.symm.trans (Subquery.implied?_of_parse parsed)
      exact because (Query.failsRightly_compileAt inside) fun exceeds =>
        ⟨negated, subquery, rfl, exceeds⟩

/-- A query is refused, or it is nested too deep, and then some query stands deeper than allowed. -/
theorem Query.failsRightly {query : Query} {enclosing : List String} :
    FailsRightly config (query.Exceeds config depth) (query.compileAt config depth enclosing) :=
  failsRightly_compileAt fun constraint _ => constraint.failsRightly

/-- A complaint about nesting names the bound, and some query stands deeper than that. -/
theorem Query.exceeds_of_tooDeep {query : Query} {enclosing : List String} {before : CompileState}
    {limit : Nat}
    (fails : Fails (query.compileAt config depth enclosing) before (.subqueryTooDeep limit)) :
    limit = config.maxSubqueryDepth ∧ query.Exceeds config depth := by
  rcases failsRightly _ _ fails with refusal | ⟨⟨⟩, exceeds⟩
  · cases refusal
  · exact ⟨rfl, exceeds⟩

/-- No compilation complains about a name that cannot be quoted. -/
theorem Query.quotable_of_fails {query : Query} {enclosing : List String} {before : CompileState}
    {fault : QuotingFault} :
    ¬ Fails (query.compileAt config depth enclosing) before (.unquotable fault) := by
  intro fails
  rcases failsRightly _ _ fails with refusal | ⟨⟨⟩, -⟩
  cases refusal

end SqlScribe
