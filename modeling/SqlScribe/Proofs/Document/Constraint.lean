import SqlScribe.Document.Constraint
import SqlScribe.Proofs.ConstraintMap
import SqlScribe.Proofs.Document.Record

/-!
# What was read from a document

A constraint map is read member by member, and each member adds one constraint:
`constraintMap_eq_ok` names the additions.  The records in a map, embedded
queries and joins, are read member by member as well, whether they were written
as objects or as arrays, and no member twice.
-/

namespace SqlScribe.Document

open Checked

/-! ## Constraint maps -/

/-- A constraint in a document: a field, the token of an operator, and its operand. -/
structure Member where
  field : String
  token : String
  value : Json

/-- The members of the object of operators that belongs to a field. -/
def operatorMembers (field : String) : Json → List Member
  | .object operators => operators.map fun operator => ⟨field, operator.1, operator.2⟩
  | _ => []

/-- The members of a document of constraints, in document order. -/
def constraintMembers : Json → List Member
  | .object fields => fields.flatMap fun entry => operatorMembers entry.1 entry.2
  | _ => []

/-- A member reads as a constraint on its field. -/
def Member.Reads (member : Member) (addition : String × Constraint) : Prop :=
  addition.1 = member.field ∧
    constraint member.field member.token member.value = .ok addition.2

/-- The map after some more additions. -/
def grown (map : ConstraintMap) (additions : List (String × Constraint)) : ConstraintMap :=
  additions.foldl (fun grown addition => grown.add addition.1 addition.2) map

theorem addOperators_eq_ok
    {field : String} {map result : ConstraintMap} {operators : List (String × Json)} :
    addOperators field map operators = .ok result ↔
      ∃ additions, List.Forall₂ Member.Reads (operatorMembers field (.object operators)) additions ∧
        result = grown map additions := by
  induction operators generalizing map with
  | nil => simp [addOperators, operatorMembers, grown, eq_comm]
  | cons operator rest step =>
      rcases operator with ⟨token, value⟩
      have head : addOperators field map ((token, value) :: rest) =
          (constraint field token value >>= fun first =>
            addOperators field (map.add field first) rest) := by
        rw [addOperators, constraint]
        cases Operator.ofToken? token <;> rfl
      simp only [head, bind_eq_ok, step, operatorMembers, List.map_cons,
        List.forall₂_cons_left_iff]
      constructor
      · rintro ⟨first, read, additions, others, rfl⟩
        exact ⟨(field, first) :: additions, ⟨_, _, ⟨rfl, read⟩, others, rfl⟩, rfl⟩
      · rintro ⟨_, ⟨⟨_, first⟩, additions, ⟨rfl, read⟩, others, rfl⟩, rfl⟩
        exact ⟨first, read, additions, others, rfl⟩

theorem addFields_eq_ok {map result : ConstraintMap} {fields : List (String × Json)} :
    addFields map fields = .ok result ↔
      checkMaps fields = .ok () ∧
        ∃ additions, List.Forall₂ Member.Reads (constraintMembers (.object fields)) additions ∧
          result = grown map additions := by
  induction fields generalizing map with
  | nil => simp [addFields, checkMaps, constraintMembers, grown, eq_comm]
  | cons entry rest step =>
      rcases entry with ⟨field, value⟩
      cases value with
      | object operators =>
          simp only [addFields, checkMaps, bind_eq_ok, addOperators_eq_ok, step]
          constructor
          · rintro ⟨_, ⟨own, first, rfl⟩, maps, others, second, rfl⟩
            refine ⟨maps, own ++ others, List.rel_append first second, ?_⟩
            simp [grown]
          · rintro ⟨maps, additions, all, rfl⟩
            rcases forall₂_append_left.1 all with ⟨own, others, first, second, rfl⟩
            exact ⟨_, ⟨own, first, rfl⟩, maps, others, second, by simp [grown]⟩
      | _ => simp [addFields, checkMaps]

/-- A map is read exactly if each of its members is, and holds what the members add. -/
theorem constraintMap_eq_ok {document : Json} {map : ConstraintMap} :
    constraintMap document = .ok map ↔
      (∃ fields, document = .object fields ∧ checkMaps fields = .ok ()) ∧
        ∃ additions, List.Forall₂ Member.Reads (constraintMembers document) additions ∧
          map = ConstraintMap.build additions := by
  cases document with
  | object fields =>
      simp only [constraintMap, bind_eq_ok, addFields_eq_ok, Json.object.injEq,
        exists_eq_left', grown, ConstraintMap.build]
      constructor
      · rintro ⟨_, -, maps, additions⟩
        exact ⟨maps, additions⟩
      · rintro ⟨maps, additions⟩
        exact ⟨(), maps, maps, additions⟩
  | _ => simp [constraintMap]

/-- A map has no entry exactly if its document has no member. -/
theorem entries_eq_nil_iff {document : Json} {map : ConstraintMap}
    (read : constraintMap document = .ok map) :
    map.entries = [] ↔ constraintMembers document = [] := by
  rcases constraintMap_eq_ok.1 read with ⟨-, additions, members, rfl⟩
  rw [ConstraintMap.entries_build, List.map_eq_nil_iff, ← List.length_eq_zero_iff (l :=
    constraintMembers document), members.length_eq, List.length_eq_zero_iff]
  cases additions with
  | nil => simp
  | cons addition rest => simp [List.eraseDups_cons]

/-! ## Tokens -/

/-- The tokens of the operators that compare with a scalar. -/
def comparisonTokens : List (String × Comparison) :=
  [("eq", .equal), ("neq", .notEqual), ("gt", .greater), ("gte", .greaterOrEqual), ("lt", .less),
    ("lte", .lessOrEqual)]

/-- The tokens of the operators that match with a pattern. -/
def patternTokens : List (String × Affix) :=
  [("str", .start), ("end", .ending), ("has", .anywhere)]

/-- The tokens of the operators that ask for membership in a list, negated or not. -/
def listTokens : List (String × Bool) :=
  [("in", false), ("nin", true)]

/-- The tokens of the operators that ask for membership in an embedded query. -/
def queryTokens : List (String × Bool) :=
  [("fi", false), ("nfi", true)]

theorem mem_comparisonTokens {token : String} {comparison : Comparison} :
    (token, comparison) ∈ comparisonTokens ↔ token = (Operator.compare comparison).token := by
  cases comparison <;> simp [comparisonTokens, Operator.token, Comparison.token]

theorem mem_patternTokens {token : String} {affix : Affix} :
    (token, affix) ∈ patternTokens ↔ token = (Operator.matching affix).token := by
  cases affix <;> simp [patternTokens, Operator.token]

theorem mem_listTokens {token : String} {negated : Bool} :
    (token, negated) ∈ listTokens ↔ token = (Operator.inList negated).token := by
  cases negated <;> simp [listTokens, Operator.token]

theorem mem_queryTokens {token : String} {negated : Bool} :
    (token, negated) ∈ queryTokens ↔ token = (Operator.inQuery negated).token := by
  cases negated <;> simp [queryTokens, Operator.token]

/-! ## Operands -/

/-- Null, a truth value, a number or a text. -/
inductive IsScalar : Json → Prop
  | null : IsScalar .null
  | truth {value : Bool} : IsScalar (.bool value)
  | number {value : JsonNumber} : IsScalar (.number value)
  | text {value : String} : IsScalar (.string value)

theorem isScalar_iff {value : Json} : value.isScalar ↔ IsScalar value := by
  constructor
  · intro scalar
    cases value with
    | null => exact .null
    | bool => exact .truth
    | number => exact .number
    | string => exact .text
    | array | object => cases scalar
  · rintro (_ | _ | _ | _) <;> rfl

/-- The text that stands for a value in a pattern, if it can stand in one. -/
def patternText? : Json → Option String
  | .string text => some text
  | .number value => some (String.ofList value.text)
  | .bool true => some "true"
  | .bool false => some "false"
  | _ => none

theorem patternOperand_eq_ok
    {field : String} {operator : Operator} {value : Json} {text : String} :
    patternOperand field operator value = .ok text ↔ patternText? value = some text := by
  cases value with
  | bool truth => cases truth <;> simp [patternOperand, patternText?, Json.boolText]
  | _ => simp [patternOperand, patternText?]

/-- The constraint has what its operator makes of the value. -/
def OperandReads (value : Json) : Constraint → Prop
  | .compare _ operand => IsScalar value ∧ operand = value
  | .matching _ text => patternText? value = some text
  | .present expected => value = .bool expected
  | .inList _ values => value = .array values
  | .inQuery _ query => subquery value = .ok query

/-- An embedded query is read like a query that is the whole document. -/
theorem constraintOf_inQuery {field : String} {negated : Bool} {value : Json} :
    constraintOf field (.inQuery negated) value =
      ((subquery value).map (.inQuery negated)).mapError fun fault =>
        .invalidValue field (.subquery fault) := by
  cases value <;> simp [constraintOf, subquery]

theorem constraintOf_eq_ok
    {field : String} {operator : Operator} {value : Json} {read : Constraint} :
    constraintOf field operator value = .ok read ↔
      read.operator = operator ∧ OperandReads value read := by
  cases operator with
  | compare comparison =>
      rw [constraintOf, map_eq_ok, scalarOperand]
      cases read <;> by_cases scalar : value.isScalar <;>
        simp [Constraint.operator, OperandReads, scalar, ← isScalar_iff]
  | matching affix =>
      rw [constraintOf, map_eq_ok]
      simp only [patternOperand_eq_ok]
      cases read <;> simp [Constraint.operator, OperandReads, and_comm]
  | present =>
      rw [constraintOf, map_eq_ok]
      cases read <;> cases value <;> simp [Constraint.operator, OperandReads, truthOperand]
      all_goals exact eq_comm
  | inList negated =>
      rw [constraintOf, map_eq_ok]
      cases read <;> cases value <;> simp [Constraint.operator, OperandReads, listOperand]
      all_goals exact fun _ => eq_comm
  | inQuery negated =>
      rw [constraintOf_inQuery, mapError_eq_ok, map_eq_ok]
      cases read <;> simp [Constraint.operator, OperandReads, and_comm]

/-- A constraint is read exactly if the token names its operator and the value fits. -/
theorem constraint_eq_ok {field token : String} {value : Json} {read : Constraint} :
    constraint field token value = .ok read ↔
      token = read.operator.token ∧ OperandReads value read := by
  unfold constraint
  cases named : Operator.ofToken? token with
  | none =>
      simp only [reduceCtorEq, false_iff, not_and]
      rintro rfl
      simp [Operator.ofToken?_token] at named
  | some operator =>
      have spelled := Operator.token_eq_of_ofToken? named
      simp only [constraintOf_eq_ok]
      constructor
      · rintro ⟨rfl, operand⟩
        exact ⟨spelled.symm, operand⟩
      · rintro ⟨rfl, operand⟩
        rw [Operator.ofToken?_token, Option.some.injEq] at named
        exact ⟨named, operand⟩

/-- The token of an operator reads as a constraint with that operator only. -/
theorem constraint_token_eq_ok
    {field : String} {operator : Operator} {value : Json} {read : Constraint} :
    constraint field operator.token value = .ok read ↔
      read.operator = operator ∧ OperandReads value read := by
  rw [constraint, Operator.ofToken?_token]
  exact constraintOf_eq_ok

/-! ## Records in maps -/

def subqueryNames : RecordNames where
  required := ["table", "select"]
  others := ["where", "joins", "skip", "limit"]

def joinNames : RecordNames where
  required := ["table", "alias"]
  others := ["via", "joinConstraints", "targetKey"]

theorem subqueryNames_shapes : subqueryNames.Shapes subqueryShape := ⟨rfl, rfl, by decide⟩

theorem joinNames_shapes : joinNames.Shapes joinShape := ⟨rfl, rfl, by decide⟩

/-- Writes a member of an embedded query. -/
def setSubquery (draft : Subquery) (member : String × Json) : Decoded Subquery :=
  setSubqueryMember draft member.1 member.2 (fun _ => constraints member.2)
    (fun _ => joins member.2)

/-- Writes a member of a join. -/
def setJoin (draft : JoinSpec) (member : String × Json) : Decoded JoinSpec :=
  setJoinMember draft member.1 member.2 (fun _ => constraints member.2)

/-- An embedded query is a record, read member by member. -/
theorem subquery_eq_ok {document : Json} {query : Subquery} :
    subquery document = .ok query ↔
      subqueryNames.Fits document ∧
        (subqueryNames.members document).foldlM setSubquery (.column "" "") = .ok query := by
  cases document with
  | object members =>
      rw [subquery, members_eq_ok subqueryShape setSubquery subqueryOfMembers
        (fun _ _ => by rw [subqueryOfMembers])
        (fun _ _ member _ => by
          rcases member with ⟨name, value⟩
          rw [subqueryOfMembers]
          rfl), ← subqueryNames_shapes.object_iff, and_assoc, and_assoc]
      rfl
  | array items =>
      rw [subquery, items_eq_ok subqueryShape setSubquery
        (subqueryOfItems items.length) (fun _ _ _ => by rw [subqueryOfItems])
        (fun _ _ _ _ => by rw [subqueryOfItems])
        (fun _ _ _ _ _ _ => by
          rw [subqueryOfItems]
          rfl), subqueryNames_shapes.array_iff]
      rfl
  | _ =>
      simp only [subquery, reduceCtorEq, false_iff, not_and]
      exact nofun

/-- A join is a record, read member by member. -/
theorem join_eq_ok {document : Json} {read : JoinSpec} :
    join document = .ok read ↔
      joinNames.Fits document ∧
        (joinNames.members document).foldlM setJoin (.bare "" "") = .ok read := by
  cases document with
  | object members =>
      rw [join, members_eq_ok joinShape setJoin joinOfMembers
        (fun _ _ => by rw [joinOfMembers])
        (fun _ _ member _ => by
          rcases member with ⟨name, value⟩
          rw [joinOfMembers]
          rfl), ← joinNames_shapes.object_iff, and_assoc, and_assoc]
      rfl
  | array items =>
      rw [join, items_eq_ok joinShape setJoin
        (joinOfItems items.length) (fun _ _ _ => by rw [joinOfItems])
        (fun _ _ _ _ => by rw [joinOfItems])
        (fun _ _ _ _ _ _ => by
          rw [joinOfItems]
          rfl), joinNames_shapes.array_iff]
      rfl
  | _ =>
      simp only [join, reduceCtorEq, false_iff, not_and]
      exact nofun

theorem subquery_members {document : Json} {query : Subquery}
    (read : subquery document = .ok query) :
    ((subqueryNames.members document).map Prod.fst).Nodup ∧
      (subqueryNames.members document).foldlM setSubquery (.column "" "") = .ok query := by
  rcases subquery_eq_ok.1 read with ⟨form, written⟩
  exact ⟨form.nodup subqueryNames_shapes.distinct, written⟩

theorem join_members {document : Json} {read : JoinSpec}
    (accepted : join document = .ok read) :
    ((joinNames.members document).map Prod.fst).Nodup ∧
      (joinNames.members document).foldlM setJoin (.bare "" "") = .ok read := by
  rcases join_eq_ok.1 accepted with ⟨form, written⟩
  exact ⟨form.nodup joinNames_shapes.distinct, written⟩

theorem joinList_eq_ok {items : List Json} {specs : List JoinSpec} :
    joinList items = .ok specs ↔
      List.Forall₂ (fun item spec => join item = .ok spec) items specs := by
  induction items generalizing specs with
  | nil => simp [joinList, eq_comm]
  | cons item rest step =>
      simp only [joinList, bind_eq_ok, pure_eq_ok, step, List.forall₂_cons_left_iff]
      constructor
      · rintro ⟨first, read, others, tail, rfl⟩
        exact ⟨first, others, read, tail, rfl⟩
      · rintro ⟨first, others, read, tail, rfl⟩
        exact ⟨first, read, others, tail, rfl⟩

theorem joins_eq_ok {document : Json} {specs : List JoinSpec} :
    joins document = .ok specs ↔
      ∃ items, document = .array items ∧
        List.Forall₂ (fun item spec => join item = .ok spec) items specs := by
  cases document <;> simp [joins, joinList_eq_ok]

/-- Whether constraints are missing is seen before they are read. -/
theorem optional_constraints {value : Json} :
    optional (fun _ => constraints value) value = optional constraints value := by
  cases value <;> rfl

/-- Each field of an embedded query is set by the member of its own name. -/
structure SubqueryWritten (draft : Subquery) (member : String × Json) (result : Subquery) :
    Prop where
  table : Sets Subquery.table "table" text draft member result
  select : Sets Subquery.select "select" text draft member result
  conditions : Sets Subquery.conditions "where" constraints draft member result
  joins : Sets Subquery.joins "joins" joins draft member result
  skip : Sets Subquery.skip "skip" (optional natural) draft member result
  limit : Sets Subquery.limit "limit" (optional natural) draft member result

/-- Each field of a join is set by the member of its own name. -/
structure JoinWritten (draft : JoinSpec) (member : String × Json) (result : JoinSpec) :
    Prop where
  table : Sets JoinSpec.table "table" text draft member result
  aliasName : Sets JoinSpec.aliasName "alias" text draft member result
  via : Sets JoinSpec.via "via" (optional text) draft member result
  conditions : Sets JoinSpec.conditions "joinConstraints" (optional constraints) draft member result
  targetKey : Sets JoinSpec.targetKey "targetKey" (optional text) draft member result

theorem subqueryWritten {draft result : Subquery} {member : String × Json}
    (written : setSubquery draft member = .ok result) : SubqueryWritten draft member result := by
  rcases member with ⟨name, value⟩
  unfold setSubquery setSubqueryMember at written
  split at written
  all_goals
    simp only [map_eq_ok, Except.ok.injEq] at written
    rcases written with ⟨_, read, rfl⟩
    constructor <;> simp_all [Sets]

theorem joinWritten {draft result : JoinSpec} {member : String × Json}
    (written : setJoin draft member = .ok result) : JoinWritten draft member result := by
  rcases member with ⟨name, value⟩
  unfold setJoin setJoinMember at written
  split at written
  all_goals
    simp only [map_eq_ok, Except.ok.injEq, optional_constraints] at written
    rcases written with ⟨_, read, rfl⟩
    constructor <;> simp_all [Sets]

/-- A field of an embedded query is what its member was read as, or empty. -/
theorem subquery_field {β : Type} {field : Subquery → β} {name : String}
    {decode : Json → Decoded β}
    (own : ∀ {draft member result}, SubqueryWritten draft member result →
      Sets field name decode draft member result)
    {document : Json} {query : Subquery} (read : subquery document = .ok query) :
    match (subqueryNames.members document).lookup name with
    | none => field query = field (.column "" "")
    | some value => decode value = .ok (field query) := by
  rcases subquery_members read with ⟨distinct, written⟩
  exact field_of_members (fun _ _ _ set => own (subqueryWritten set)) distinct written

/-- A field of a join is what its member was read as, or empty. -/
theorem join_field {β : Type} {field : JoinSpec → β} {name : String}
    {decode : Json → Decoded β}
    (own : ∀ {draft member result}, JoinWritten draft member result →
      Sets field name decode draft member result)
    {document : Json} {spec : JoinSpec} (read : join document = .ok spec) :
    match (joinNames.members document).lookup name with
    | none => field spec = field (.bare "" "")
    | some value => decode value = .ok (field spec) := by
  rcases join_members read with ⟨distinct, written⟩
  exact field_of_members (fun _ _ _ set => own (joinWritten set)) distinct written

/-- The constraints of an embedded query are those of its map; without a map it has none. -/
theorem subquery_conditions {document : Json} {query : Subquery}
    (read : subquery document = .ok query) :
    match (subqueryNames.members document).lookup "where" with
    | none => query.conditions = .empty
    | some value => constraintMap value = .ok query.conditions := by
  have conditions := subquery_field SubqueryWritten.conditions read
  simp only [constraints, mapError_eq_ok] at conditions
  exact conditions

/-- The joins of an embedded query are those of its list; without a list it has none. -/
theorem subquery_joins {document : Json} {query : Subquery}
    (read : subquery document = .ok query) :
    match (subqueryNames.members document).lookup "joins" with
    | none => query.joins = []
    | some value => ∃ items, value = .array items ∧
        List.Forall₂ (fun item spec => join item = .ok spec) items query.joins := by
  have joins := subquery_field SubqueryWritten.joins read
  simp only [joins_eq_ok] at joins
  exact joins

/-- The constraints of a join are those of its map, which null stands for the absence of. -/
theorem join_conditions {document : Json} {read : JoinSpec}
    (accepted : join document = .ok read) :
    match (joinNames.members document).lookup "joinConstraints" with
    | none => read.conditions = none
    | some value => optional constraints value = .ok read.conditions :=
  join_field JoinWritten.conditions accepted

end SqlScribe.Document
