import SqlScribe.Proofs.Document.Constraint
import SqlScribe.Proofs.Scope

/-!
# The meaning of conditions

SQL knows three truth values.  The condition that a document of constraints
becomes has one atomic predicate for each member of the document, and under
every valuation of these it is their conjunction.

`constraints_kept` says so for the WHERE clause of a query, for the ON clauses
of its joins, and for all queries inside it.
-/

namespace SqlScribe

open Checked

/-! ## Truth values -/

inductive Truth where
  | no
  | unknown
  | yes
deriving DecidableEq, Repr

namespace Truth

/-- The conjunction of two truth values: the lesser one. -/
def and : Truth → Truth → Truth
  | .no, _ => .no
  | .yes, other => other
  | .unknown, .no => .no
  | .unknown, _ => .unknown

theorem and_yes (value : Truth) : and value .yes = value := by
  cases value <;> rfl

theorem and_assoc (first second third : Truth) :
    and (and first second) third = and first (and second third) := by
  cases first <;> cases second <;> cases third <;> rfl

/-- The conjunction of some truth values. -/
def all (values : List Truth) : Truth := values.foldr and .yes

@[simp]
theorem all_append (first second : List Truth) : all (first ++ second) = and (all first) (all second) := by
  induction first with
  | nil => rfl
  | cons value rest step =>
      show and value (all (rest ++ second)) = and (and value (all rest)) (all second)
      rw [step, and_assoc]

end Truth

/-! ## Atomic predicates -/

mutual

/-- The predicates that a condition is put together from. -/
def Expr.atoms : Expr → List Expr
  | .and parts => Expr.allAtoms parts
  | .group inner => inner.atoms
  | atom => [atom]

/-- The predicates of some conditions, one condition after another. -/
def Expr.allAtoms : List Expr → List Expr
  | [] => []
  | part :: rest => part.atoms ++ Expr.allAtoms rest

end

mutual

/-- The truth value of a condition, given those of its predicates. -/
def Expr.eval (valuation : Expr → Truth) : Expr → Truth
  | .and parts => Expr.evalAll valuation parts
  | .group inner => inner.eval valuation
  | .truth => .yes
  | atom => valuation atom

/-- The conjunction of the truth values of some conditions. -/
def Expr.evalAll (valuation : Expr → Truth) : List Expr → Truth
  | [] => .yes
  | part :: rest => (part.eval valuation).and (Expr.evalAll valuation rest)

end

mutual

/-- A condition means the conjunction of its predicates. -/
theorem Expr.eval_eq_all_atoms (valuation : Expr → Truth) :
    ∀ condition : Expr,
      condition.eval valuation = Truth.all (condition.atoms.map (Expr.eval valuation))
  | .and parts => by
      rw [Expr.eval, Expr.atoms]
      exact Expr.evalAll_eq_all_atoms valuation parts
  | .group inner => by
      rw [Expr.eval, Expr.atoms]
      exact Expr.eval_eq_all_atoms valuation inner
  | .column _ | .concat _ | .literal _ | .compare _ _ _ | .like _ _ | .nullCheck _ _
  | .inList _ _ _ | .inSelect _ _ _ | .truth => (Truth.and_yes _).symm

theorem Expr.evalAll_eq_all_atoms (valuation : Expr → Truth) :
    ∀ parts : List Expr,
      Expr.evalAll valuation parts =
        Truth.all ((Expr.allAtoms parts).map (Expr.eval valuation))
  | [] => rfl
  | part :: rest => by
      rw [Expr.evalAll, Expr.allAtoms, List.map_append, Truth.all_append,
        Expr.eval_eq_all_atoms valuation part, Expr.evalAll_eq_all_atoms valuation rest]

end

/-- The condition is a single predicate. -/
def Expr.IsAtom (condition : Expr) : Prop := condition.atoms = [condition]

section Parts

variable {parts : List Expr} {groups : List (List Expr)}

theorem Expr.allAtoms_eq_flatMap : Expr.allAtoms parts = parts.flatMap Expr.atoms := by
  induction parts with
  | nil => rfl
  | cons part rest step => rw [Expr.allAtoms, step, List.flatMap_cons]

theorem Expr.atoms_conjunction :
    (Expr.conjunction parts).atoms = parts.flatMap Expr.atoms := by
  unfold Expr.conjunction
  split
  · simp
  · rw [Expr.atoms, Expr.allAtoms_eq_flatMap]

theorem atoms_of_predicates (each : ∀ part ∈ parts, part.IsAtom) :
    parts.flatMap Expr.atoms = parts := by
  induction parts with
  | nil => rfl
  | cons part rest step =>
      rw [List.flatMap_cons, each part List.mem_cons_self,
        step fun other member => each other (List.mem_cons_of_mem _ member)]
      rfl

/-- Grouping the predicates of a field neither drops nor repeats one. -/
theorem atoms_fieldParts (each : ∀ part ∈ parts, part.IsAtom) :
    (fieldParts parts).flatMap Expr.atoms = parts := by
  unfold fieldParts
  split
  · rfl
  · exact atoms_of_predicates each
  · simp only [List.flatMap_singleton, Expr.atoms, Expr.allAtoms_eq_flatMap]
    exact atoms_of_predicates each

theorem atoms_allParts (each : ∀ group ∈ groups, ∀ part ∈ group, part.IsAtom) :
    (groups.flatMap fieldParts).flatMap Expr.atoms = groups.flatten := by
  induction groups with
  | nil => rfl
  | cons group rest step =>
      rw [List.flatMap_cons, List.flatMap_append, atoms_fieldParts (each group List.mem_cons_self),
        step fun other member => each other (List.mem_cons_of_mem _ member), List.flatten_cons]

theorem allParts_eq_nil : groups.flatMap fieldParts = [] ↔ groups.flatten = [] := by
  simp only [List.flatMap_eq_nil_iff, List.flatten_eq_nil_iff]
  refine forall_congr' fun group => imp_congr_right fun _ => ?_
  unfold fieldParts
  split
  · simp
  · simp
  · rename_i nonempty _
    simpa using nonempty

end Parts

/-! ## Documents and conditions -/

namespace Document

/-- The members of a document of constraints, those of a field next to each other. -/
def groupedMembers (document : Json) : List Member :=
  groupedBy Member.field (constraintMembers document)

/-- The map of constraints that an embedded query has; without one it has an empty map. -/
def whereOf (descriptor : Json) : Json :=
  ((subqueryNames.members descriptor).lookup "where").getD (.object [])

/-- The joins that an embedded query has. -/
def joinsOf (descriptor : Json) : List Json :=
  match (subqueryNames.members descriptor).lookup "joins" with
  | some (.array items) => items
  | _ => []

/-- The map of constraints that a join has, if it has one. -/
def constraintsOf (join : Json) : Option Json :=
  ((joinNames.members join).lookup "joinConstraints").filter (· ≠ .null)

end Document

open Document

/-- The condition that the constraints of a join form; a join over a column has none. -/
def Join.constrained (join : Join) : Option Expr :=
  match join.condition with
  | .group inner => some inner
  | _ => none

mutual

/-- The predicate says of the rows of `owner` what the member of a document says. -/
inductive MemberKept (config : Config) : String → Member → Expr → Prop where
  | compare {owner member comparison column}
      (named : (member.token, comparison) ∈ comparisonTokens)
      (value : IsScalar member.value)
      (denotes : ColumnRef.Denotes owner member.field column) :
      MemberKept config owner member (.compare (.column column) comparison (.literal member.value))
  | matching {owner member affix text column}
      (named : (member.token, affix) ∈ patternTokens)
      (value : patternText? member.value = some text)
      (denotes : ColumnRef.Denotes owner member.field column) :
      MemberKept config owner member (.like (.column column) (affix.pattern text))
  | matchingAll {owner member text columns}
      (named : (member.token, .anywhere) ∈ patternTokens)
      (value : patternText? member.value = some text)
      (denotes : List.Forall₂
        (fun part column => ColumnRef.Denotes owner (String.ofList part) column)
        (Text.splitAt config.hasDelimiter member.field.toList) columns) :
      MemberKept config owner member (.like (.concat columns) (Affix.anywhere.pattern text))
  | present {owner member expected column}
      (named : member.token = "ex")
      (value : member.value = .bool expected)
      (denotes : ColumnRef.Denotes owner member.field column) :
      MemberKept config owner member (.nullCheck (.column column) (!expected))
  | emptyList {owner member negated}
      (named : (member.token, negated) ∈ listTokens)
      (value : member.value = .array []) :
      MemberKept config owner member .truth
  | inList {owner member negated first rest column}
      (named : (member.token, negated) ∈ listTokens)
      (value : member.value = .array (first :: rest))
      (denotes : ColumnRef.Denotes owner member.field column) :
      MemberKept config owner member (.inList (.column column) (first :: rest) negated)
  | inQuery {owner member negated column select}
      (named : (member.token, negated) ∈ queryTokens)
      (denotes : ColumnRef.Denotes owner member.field column)
      (inner : QueryKept config member.value select) :
      MemberKept config owner member (.inSelect (.column column) select negated)

/-- There is one predicate for each member, in order. -/
inductive MembersKept (config : Config) : String → List Member → List Expr → Prop where
  | nil {owner} : MembersKept config owner [] []
  | cons {owner member members atom atoms}
      (head : MemberKept config owner member atom)
      (tail : MembersKept config owner members atoms) :
      MembersKept config owner (member :: members) (atom :: atoms)

/--
The clause is the conjunction of one predicate for each member of the document,
and there is no clause exactly if there is no member.
-/
inductive ClauseKept (config : Config) : String → Json → Option Expr → Prop where
  | clause {owner document clause atoms}
      (members : MembersKept config owner (groupedMembers document) atoms)
      (absent : clause = none ↔ constraintMembers document = [])
      (predicates : ∀ condition ∈ clause, condition.atoms = atoms)
      (meaning : ∀ condition ∈ clause, ∀ valuation : Expr → Truth,
        condition.eval valuation = Truth.all (atoms.map (Expr.eval valuation))) :
      ClauseKept config owner document clause

/-- The clauses of the SELECT say what the maps of the embedded query say. -/
inductive QueryKept (config : Config) : Json → Select → Prop where
  | query {descriptor select}
      (conditions :
        ClauseKept config select.source.reference (whereOf descriptor) select.condition)
      (joined : (joinsOf descriptor).length ≤ select.joins.length)
      (joins : ∀ join node document, (join, node) ∈ (joinsOf descriptor).zip select.joins →
        constraintsOf join = some document →
        ClauseKept config node.table.reference document node.constrained) :
      QueryKept config descriptor select

end

/-! ## Reading and compiling -/

/-- The property of constraints that the induction carries. -/
def Constraint.Kept (config : Config) : ConstraintRelation :=
  fun _ _ owner field constraint expr =>
    expr.IsAtom ∧
      ∀ token value, Document.constraint field token value = .ok constraint →
        MemberKept config owner ⟨field, token, value⟩ expr

/-- Every map of the query is kept by the clause that it became. -/
structure Query.Kept (config : Config) (query : Query) (select : Select) : Prop where
  conditions : ∀ document, constraintMap document = .ok query.conditions →
    ClauseKept config select.source.reference document select.condition
  joins : List.Forall₂
    (fun join node => node.table.reference = join.aliasName ∧
      ∀ map document, join.conditions = some map → constraintMap document = .ok map →
        ClauseKept config node.table.reference document node.constrained)
    query.joins select.joins

variable {config : Config} {depth : Nat} {names : Names} {owner : String}
variable {entries : List FieldConstraints} {groups : List (List Expr)}

theorem ConditionsCompiled.predicates
    (compiled : ConditionsCompiled (Constraint.Kept config) depth names owner entries groups) :
    ∀ group ∈ groups, ∀ part ∈ group, part.IsAtom := by
  intro group present part inside
  rcases compiled.mem group present part inside with ⟨entry, -, constraint, -, kept⟩
  exact kept.1

/-- The predicates of all fields belong to the constraints of the map, one to each. -/
theorem ConditionsCompiled.flattened
    {related : ConstraintRelation}
    (compiled : ConditionsCompiled related depth names owner entries groups) :
    List.Forall₂
      (fun addition expr => related depth names owner (Prod.fst addition) (Prod.snd addition) expr)
      (ConstraintMap.members ⟨entries⟩) groups.flatten := by
  induction compiled with
  | nil => exact .nil
  | cons head _ step =>
      refine List.rel_append ?_ step
      rw [List.forall₂_map_left_iff]
      exact head

theorem membersKept_of_compiled
    {members : List Member} {additions : List (String × Constraint)} {atoms : List Expr}
    (read : List.Forall₂ Member.Reads members additions)
    (compiled : List.Forall₂
      (fun addition expr =>
        Constraint.Kept config depth names owner (Prod.fst addition) (Prod.snd addition) expr)
      additions atoms) :
    MembersKept config owner members atoms := by
  induction read generalizing atoms with
  | nil =>
      cases compiled
      exact .nil
  | cons head _ step =>
      cases compiled with
      | cons first others =>
          refine .cons ?_ (step others)
          rcases head with ⟨same, read⟩
          have kept := first.2 _ _ (same ▸ read)
          rw [same] at kept
          exact kept

/-- A map that was read is kept by the predicates of its fields. -/
theorem ConditionsCompiled.kept
    {document : Json} {map : ConstraintMap}
    (read : constraintMap document = .ok map)
    (compiled : ConditionsCompiled (Constraint.Kept config) depth names owner map.entries groups) :
    MembersKept config owner (groupedMembers document) groups.flatten ∧
      (groups.flatMap fieldParts = [] ↔ constraintMembers document = []) := by
  rcases constraintMap_eq_ok.1 read with ⟨-, additions, members, rfl⟩
  have grouped := forall₂_groupedBy Member.field Prod.fst
    (fun member addition reads => reads.1.symm) members
  have flat := compiled.flattened
  have same : ConstraintMap.members ⟨(ConstraintMap.build additions).entries⟩ =
      groupedBy Prod.fst additions :=
    ConstraintMap.members_build additions
  rw [same] at flat
  refine ⟨membersKept_of_compiled grouped flat, ?_⟩
  rw [allParts_eq_nil, ← List.length_eq_zero_iff, ← flat.length_eq, ← grouped.length_eq,
    List.length_eq_zero_iff, groupedBy_eq_nil]

theorem clauseKept_of_parts
    {document : Json} {clause : Option Expr}
    (members : MembersKept config owner (groupedMembers document) groups.flatten)
    (absent : groups.flatMap fieldParts = [] ↔ constraintMembers document = [])
    (predicates : ∀ group ∈ groups, ∀ part ∈ group, part.IsAtom)
    (clauses : clause = whereClause (groups.flatMap fieldParts)) :
    ClauseKept config owner document clause := by
  have atoms : ∀ condition ∈ clause, condition.atoms = groups.flatten := by
    intro condition member
    rw [clauses, whereClause] at member
    split at member
    · cases member
    · cases member
      rw [Expr.atoms_conjunction, atoms_allParts predicates]
  refine .clause members ?_ atoms ?_
  · rw [clauses, whereClause, ← absent]
    split
    · rename_i empty
      simpa using empty
    · rename_i some
      simpa using some
  · intro condition member valuation
    rw [Expr.eval_eq_all_atoms, atoms condition member]

theorem JoinSpec.Compiled.kept
    {earlier : List String} {join : JoinSpec} {node : Join}
    (compiled : join.Compiled config (Constraint.Kept config) depth names earlier node)
    {map : ConstraintMap} {document : Json}
    (given : join.conditions = some map) (read : constraintMap document = .ok map) :
    ClauseKept config join.aliasName document node.constrained := by
  have entries : join.entries = map.entries := by simp [JoinSpec.entries, given]
  rcases compiled.condition with ⟨via, path, -, none, -, -, -, condition⟩ | constrained
  · have empty : ConditionsCompiled (Constraint.Kept config) depth names join.aliasName
        map.entries [] := by
      rw [← entries, none]
      exact .nil
    rcases empty.kept read with ⟨members, absent⟩
    apply clauseKept_of_parts members absent (by simp)
    simp [Join.constrained, condition, whereClause]
  · rcases constrained with ⟨groups, -, some, -, condition, inner⟩
    rw [entries] at some inner
    rcases inner.kept read with ⟨members, absent⟩
    apply clauseKept_of_parts members absent inner.predicates
    have filled : groups.flatMap fieldParts ≠ [] := fun empty =>
      some ((entries_eq_nil_iff read).2 (absent.1 empty))
    simp [Join.constrained, condition, whereClause, onCondition, filled]

theorem Query.Compiled.kept
    {enclosing : List String} {query : Query} {select : Select}
    (compiled : query.Compiled config (Constraint.Kept config) depth enclosing select) :
    query.Kept config select := by
  refine ⟨?_, ?_⟩
  · intro document read
    rcases compiled.condition with ⟨groups, condition, inner⟩
    rcases inner.kept read with ⟨members, absent⟩
    exact clauseKept_of_parts members absent inner.predicates condition
  · apply (JoinSpec.compiled_pairs compiled.joins).imp
    rintro join node ⟨before, joined⟩
    have named : node.table.reference = join.aliasName := by
      rw [joined.table]
      rfl
    rw [named]
    exact ⟨rfl, fun map document given read => joined.kept given read⟩

theorem joinsOf_read {descriptor : Json} {subquery : Subquery}
    (read : Document.subquery descriptor = .ok subquery) :
    List.Forall₂ (fun item spec => Document.join item = .ok spec) (joinsOf descriptor)
      subquery.joins := by
  have joins := subquery_joins read
  unfold joinsOf
  split at joins
  · rename_i missing
    rw [missing, joins]
    exact .nil
  · rename_i value given
    rcases joins with ⟨items, rfl, each⟩
    rw [given]
    exact each

theorem constraintsOf_read {item document : Json} {spec : JoinSpec}
    (read : Document.join item = .ok spec) (given : constraintsOf item = some document) :
    ∃ map, spec.conditions = some map ∧ constraintMap document = .ok map := by
  have conditions := join_conditions read
  rcases Option.filter_eq_some_iff.1 given with ⟨written, present⟩
  rw [written] at conditions
  simp only [decide_eq_true_eq] at present
  have constrained : (constraints document).map some = .ok spec.conditions := by
    cases document <;> first | exact absurd rfl present | exact conditions
  simp only [constraints, map_eq_ok, mapError_eq_ok] at constrained
  rcases constrained with ⟨map, read, given⟩
  exact ⟨map, given, read⟩

/-- An embedded query that was read keeps the maps of its descriptor. -/
theorem Query.Kept.descriptor
    {descriptor : Json} {subquery : Subquery} {implied : Option String} {select : Select}
    (read : Document.subquery descriptor = .ok subquery)
    (kept : (subquery.asQuery config implied).Kept config select) :
    QueryKept config descriptor select := by
  rcases forall₂_append_left.1 kept.joins with ⟨front, back, own, -, nodes⟩
  have items := joinsOf_read read
  have size : (joinsOf descriptor).length = front.length := items.length_eq.trans own.length_eq
  refine .query (kept.conditions _ ?_) ?_ ?_
  · have conditions := subquery_conditions read
    unfold whereOf
    split at conditions
    · rename_i missing
      rw [missing, Option.getD_none]
      show constraintMap (.object []) = .ok subquery.conditions
      rw [conditions]
      rfl
    · rename_i document given
      rw [given, Option.getD_some]
      exact conditions
  · rw [nodes, List.length_append]
    omega
  · intro item node document paired given
    have pairs : (joinsOf descriptor).zip select.joins = (joinsOf descriptor).zip front := by
      have parts : (joinsOf descriptor ++ []).zip (front ++ back) =
          (joinsOf descriptor).zip front ++ [].zip back := List.zip_append size
      simpa [nodes] using parts
    rcases List.forall₂_zip (forall₂_trans items own) (pairs ▸ paired) with
      ⟨spec, accepted, _, clauses⟩
    rcases constraintsOf_read accepted given with ⟨map, conditions, constrained⟩
    exact clauses map document conditions constrained

theorem Constraint.kept_cases (config : Config) :
    CompileCases config (Constraint.Kept config) fun _ _ query select =>
      query.Kept config select where
  compare resolved := by
    refine ⟨rfl, fun token value read => ?_⟩
    rcases constraint_eq_ok.1 read with ⟨named, scalar, rfl⟩
    exact .compare (mem_comparisonTokens.2 named) scalar (Names.denotes_of_resolveIn resolved)
  matching resolved := by
    refine ⟨rfl, fun token value read => ?_⟩
    rcases constraint_eq_ok.1 read with ⟨named, text⟩
    rcases patternSubject_eq_ok resolved with ⟨column, read, rfl⟩ | ⟨rfl, columns, parts, rfl⟩
    · exact .matching (mem_patternTokens.2 named) text (Names.denotes_of_resolveIn read)
    · exact .matchingAll (mem_patternTokens.2 named) text
        (parts.imp fun part column read => Names.denotes_of_resolveIn read)
  present resolved := by
    refine ⟨rfl, fun token value read => ?_⟩
    rcases constraint_eq_ok.1 read with ⟨named, truth⟩
    exact .present named truth (Names.denotes_of_resolveIn resolved)
  inList := by
    intro _ _ _ _ _ values _ resolved
    cases values with
    | nil =>
        refine ⟨rfl, fun token value read => ?_⟩
        rcases constraint_eq_ok.1 read with ⟨named, items⟩
        exact .emptyList (mem_listTokens.2 named) items
    | cons first rest =>
        refine ⟨rfl, fun token value read => ?_⟩
        rcases constraint_eq_ok.1 read with ⟨named, items⟩
        exact .inList (mem_listTokens.2 named) items (Names.denotes_of_resolveIn resolved)
  inQuery resolved _ inner := by
    refine ⟨rfl, fun token value read => ?_⟩
    rcases constraint_eq_ok.1 read with ⟨named, descriptor⟩
    exact .inQuery (mem_queryTokens.2 named) (Names.denotes_of_resolveIn resolved)
      (inner.descriptor descriptor)
  query compiled := compiled.kept

/--
The clauses of a statement keep every constraint: that of a document that was
read, those of the joins, and those of all queries inside them.
-/
theorem constraints_kept
    {config : Config} {query : Query} {select : Select} {document : Json} {map : ConstraintMap}
    (read : constraintMap document = .ok map)
    (built : query.conditions = map ∨
      ∃ bare : Query, bare.conditions = .empty ∧ query = bare.constrain map)
    (compiled : (query.statement config).1 = .ok select) :
    ClauseKept config select.source.reference document select.condition ∧
      List.Forall₂
        (fun join node => ∀ map document, join.conditions = some map →
          constraintMap document = .ok map →
          ClauseKept config join.aliasName document node.constrained)
        query.joins select.joins := by
  have conditions : query.conditions = map := by
    rcases built with own | ⟨bare, empty, rfl⟩
    · exact own
    · rcases constraintMap_eq_ok.1 read with ⟨-, additions, -, rfl⟩
      show bare.conditions.merge _ = _
      rw [empty]
      exact ConstraintMap.merge_build [] additions
  have kept := (Constraint.kept_cases config).statement compiled
  refine ⟨kept.conditions document (conditions ▸ read), kept.joins.imp ?_⟩
  rintro join node ⟨named, clauses⟩
  rwa [named] at clauses

/-- Open tickets of active users, by repeated fields and with an empty list. -/
def openTickets : Json :=
  .object
    [("status", .object [("neq", .string "closed")]),
      ("owner", .object
        [("fi", .array [.string "users", .string "id", .object [("active", .object
          [("eq", .bool true)])]])]),
      ("status", .object [("in", .array []), ("ex", .bool true)])]

def openTicketsMap : ConstraintMap :=
  ⟨[⟨"status", [.compare .notEqual (.string "closed"), .inList false [], .present true]⟩,
    ⟨"owner", [.inQuery false
      ⟨"users", "id", ⟨[⟨"active", [.compare .equal (.bool true)]⟩]⟩, [], none, none⟩]⟩]⟩

def openTicketsSelect : Select :=
  ⟨.all, ⟨"tickets", none⟩, [],
    some (.and
      [.group (.and
        [.compare (.column ⟨some "tickets", "status"⟩) .notEqual (.literal (.string "closed")),
          .truth, .nullCheck (.column ⟨some "tickets", "status"⟩) false]),
        .inSelect (.column ⟨some "tickets", "owner"⟩)
          ⟨.columns [⟨⟨some "sq1_0", "id"⟩, none⟩], ⟨"users", some "sq1_0"⟩, [],
            some (.compare (.column ⟨some "sq1_0", "active"⟩) .equal (.literal (.bool true))),
            [], ⟨none, none⟩⟩
          false]),
    [], ⟨none, none⟩⟩

theorem constraints_kept_openTickets :
    constraintMap openTickets = .ok openTicketsMap ∧
      ((Query.constrain { table := "tickets" } openTicketsMap).statement {}).1 =
        .ok openTicketsSelect ∧
      ClauseKept {} "tickets" openTickets openTicketsSelect.condition := by
  have read : constraintMap openTickets = .ok openTicketsMap := by cbv
  have compiled :
      ((Query.constrain { table := "tickets" } openTicketsMap).statement {}).1 =
        .ok openTicketsSelect := by
    cbv
  exact ⟨read, compiled, (constraints_kept read (.inr ⟨_, rfl, rfl⟩) compiled).1⟩

end SqlScribe
