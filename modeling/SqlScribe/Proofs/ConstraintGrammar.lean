import SqlScribe.Proofs.Document.Settled

/-!
# The grammar of constraints in documents

Which documents are maps of constraints is said here without a reader: every
operator takes operands of its own form, and an operand that is an embedded
query holds maps again, its own one and those of its joins.

The reader accepts exactly these documents.  What it makes of one has a
constraint for each member of the document, with the operator that the member
names and the value that it gives, in embedded queries as well.
-/

namespace SqlScribe.Document

open Checked

/-! ## Which documents are accepted -/

/-- Null or a text. -/
inductive IsOptionalText : Json → Prop
  | null : IsOptionalText .null
  | text {value : String} : IsOptionalText (.string value)

/-- Null or a natural number of 64 bits. -/
inductive IsOptionalNatural : Json → Prop
  | null : IsOptionalNatural .null
  | natural {value : Nat} (small : value < UInt64.size) :
      IsOptionalNatural (.integer value)

mutual

/-- A map of constraints: an object with an object of operands for each field. -/
inductive IsMap : Json → Prop
  | object {fields : List (String × Json)}
      (maps : ∀ entry ∈ fields, ∃ operators, entry.2 = .object operators)
      (operands : ∀ member ∈ constraintMembers (.object fields),
        IsOperand member.token member.value) :
      IsMap (.object fields)

/-- An operand of the operator with this token. -/
inductive IsOperand : String → Json → Prop
  | comparison {token : String} {comparison : Comparison} {value : Json}
      (named : (token, comparison) ∈ comparisonTokens) (scalar : IsScalar value) :
      IsOperand token value
  | pattern {token text : String} {affix : Affix} {value : Json}
      (named : (token, affix) ∈ patternTokens) (printed : patternText? value = some text) :
      IsOperand token value
  | presence {expected : Bool} : IsOperand "ex" (.bool expected)
  | list {token : String} {negated : Bool} {items : List Json}
      (named : (token, negated) ∈ listTokens) : IsOperand token (.array items)
  | query {token : String} {negated : Bool} {value : Json}
      (named : (token, negated) ∈ queryTokens) (subquery : IsSubquery value) :
      IsOperand token value

/-- An embedded query: a record whose members all have their own form. -/
inductive IsSubquery : Json → Prop
  | record {document : Json} (form : subqueryNames.Fits document)
      (table : ∀ value, ("table", value) ∈ subqueryNames.members document →
        ∃ name, value = .string name)
      (select : ∀ value, ("select", value) ∈ subqueryNames.members document →
        ∃ path, value = .string path)
      (conditions : ∀ value, ("where", value) ∈ subqueryNames.members document →
        IsMap value)
      (joins : ∀ value, ("joins", value) ∈ subqueryNames.members document →
        ∃ items, value = .array items)
      (eachJoin : ∀ items, ("joins", .array items) ∈ subqueryNames.members document →
        ∀ item ∈ items, IsJoin item)
      (skip : ∀ value, ("skip", value) ∈ subqueryNames.members document →
        IsOptionalNatural value)
      (limit : ∀ value, ("limit", value) ∈ subqueryNames.members document →
        IsOptionalNatural value) :
      IsSubquery document

/-- A join: a record whose members all have their own form. -/
inductive IsJoin : Json → Prop
  | record {document : Json} (form : joinNames.Fits document)
      (table : ∀ value, ("table", value) ∈ joinNames.members document →
        ∃ name, value = .string name)
      (aliasName : ∀ value, ("alias", value) ∈ joinNames.members document →
        ∃ name, value = .string name)
      (via : ∀ value, ("via", value) ∈ joinNames.members document → IsOptionalText value)
      (conditions : ∀ value, ("joinConstraints", value) ∈ joinNames.members document →
        value ≠ .null → IsMap value)
      (targetKey : ∀ value, ("targetKey", value) ∈ joinNames.members document →
        IsOptionalText value) :
      IsJoin document

end

/-! ## What is read of them -/

/-- The text that is given, if one is. -/
def givenText? : Option Json → Option String
  | some (.string text) => some text
  | _ => none

/-- The natural number that is given, if one is. -/
def givenNatural? : Option Json → Option Nat
  | some (.number (.integer value)) => some value.toNat
  | _ => none

/-- The names in a join are those of its document. -/
structure NamesJoin (document : Json) (join : JoinSpec) : Prop where
  table : givenText? ((joinNames.members document).lookup "table") = some join.table
  aliasName : givenText? ((joinNames.members document).lookup "alias") = some join.aliasName
  via : givenText? ((joinNames.members document).lookup "via") = join.via
  targetKey : givenText? ((joinNames.members document).lookup "targetKey") = join.targetKey

mutual

/--
The map says what the document says: it has the fields of the document in the
order of their first members, and a constraint for each member of a field.
-/
inductive DescribesMap : Json → ConstraintMap → Prop
  | map {document : Json} {map : ConstraintMap}
      (fields : map.entries.map FieldConstraints.field =
        ((constraintMembers document).map Member.field).eraseDups)
      (constraints : ∀ entry ∈ map.entries,
        List.Forall₂ Describes
          ((constraintMembers document).filter fun member => member.field = entry.field)
          entry.constraints) :
      DescribesMap document map

/-- The constraint has the operator that the member names, and the value that it gives. -/
inductive Describes : Member → Constraint → Prop
  | compare {field token : String} {comparison : Comparison} {value : Json}
      (named : (token, comparison) ∈ comparisonTokens) :
      Describes ⟨field, token, value⟩ (.compare comparison value)
  | matching {field token text : String} {affix : Affix} {value : Json}
      (named : (token, affix) ∈ patternTokens) (printed : patternText? value = some text) :
      Describes ⟨field, token, value⟩ (.matching affix text)
  | present {field : String} {expected : Bool} :
      Describes ⟨field, "ex", .bool expected⟩ (.present expected)
  | inList {field token : String} {negated : Bool} {items : List Json}
      (named : (token, negated) ∈ listTokens) :
      Describes ⟨field, token, .array items⟩ (.inList negated items)
  | inQuery {field token : String} {negated : Bool} {value : Json} {query : Subquery}
      (named : (token, negated) ∈ queryTokens) (inner : DescribesSubquery value query) :
      Describes ⟨field, token, value⟩ (.inQuery negated query)

/-- The embedded query has what its document gives; what is not given is empty. -/
inductive DescribesSubquery : Json → Subquery → Prop
  | record {document : Json} {query : Subquery}
      (table : givenText? ((subqueryNames.members document).lookup "table") =
        some query.table)
      (select : givenText? ((subqueryNames.members document).lookup "select") =
        some query.select)
      (noConditions : (subqueryNames.members document).lookup "where" = none →
        query.conditions = .empty)
      (conditions : ∀ value, (subqueryNames.members document).lookup "where" = some value →
        DescribesMap value query.conditions)
      (noJoins : (subqueryNames.members document).lookup "joins" = none → query.joins = [])
      (joins : ∀ items,
        (subqueryNames.members document).lookup "joins" = some (.array items) →
        List.Forall₂ DescribesJoin items query.joins)
      (skip : givenNatural? ((subqueryNames.members document).lookup "skip") = query.skip)
      (limit : givenNatural? ((subqueryNames.members document).lookup "limit") =
        query.limit) :
      DescribesSubquery document query

/-- The join has what its document gives; null gives no constraints. -/
inductive DescribesJoin : Json → JoinSpec → Prop
  | unconstrained {document : Json} {join : JoinSpec} (names : NamesJoin document join)
      (absent : ∀ value, (joinNames.members document).lookup "joinConstraints" = some value →
        value = .null)
      (none : join.conditions = none) :
      DescribesJoin document join
  | constrained {document value : Json} {join : JoinSpec} {map : ConstraintMap}
      (names : NamesJoin document join)
      (given : (joinNames.members document).lookup "joinConstraints" = some value)
      (present : value ≠ .null)
      (conditions : join.conditions = some map)
      (inner : DescribesMap value map) :
      DescribesJoin document join

end

/-! ## Documents inside documents -/

theorem sizeOf_operand_lt {document : Json} {member : Member}
    (inside : member ∈ constraintMembers document) : sizeOf member.value < sizeOf document := by
  cases document with
  | object fields =>
      rcases List.mem_flatMap.1 inside with ⟨⟨field, value⟩, entry, listed⟩
      cases value with
      | object operators =>
          rcases List.mem_map.1 listed with ⟨⟨token, operand⟩, operator, rfl⟩
          have outer := List.sizeOf_lt_of_mem entry
          have inner := List.sizeOf_lt_of_mem operator
          simp only [Prod.mk.sizeOf_spec, Json.object.sizeOf_spec] at outer inner ⊢
          omega
      | _ => cases listed
  | _ => cases inside

theorem sizeOf_member_lt {names : RecordNames} {document : Json} {member : String × Json}
    (inside : member ∈ names.members document) : sizeOf member.2 < sizeOf document := by
  rcases member with ⟨name, value⟩
  cases document with
  | object members =>
      have inner : sizeOf (name, value) < sizeOf members := List.sizeOf_lt_of_mem inside
      simp only [Prod.mk.sizeOf_spec, Json.object.sizeOf_spec] at inner ⊢
      omega
  | array items =>
      have inner := List.sizeOf_lt_of_mem (List.of_mem_zip inside).2
      simp only [Json.array.sizeOf_spec]
      omega
  | _ => cases inside

/-- A document is judged if it is read exactly when it is a map, and as what it says. -/
structure Judged (document : Json) : Prop where
  accepted : (∃ map, constraintMap document = .ok map) ↔ IsMap document
  described : ∀ map, constraintMap document = .ok map → DescribesMap document map

/-- Every document inside this one is judged. -/
def JudgedBelow (document : Json) : Prop :=
  ∀ inner, sizeOf inner < sizeOf document → Judged inner

theorem JudgedBelow.mono {document inner : Json} (below : JudgedBelow document)
    (smaller : sizeOf inner < sizeOf document) : JudgedBelow inner :=
  fun innermost inside => below innermost (Nat.lt_trans inside smaller)

/-! ## Scalars -/

theorem exists_optional_text_iff {value : Json} :
    (∃ read, optional text value = .ok read) ↔ IsOptionalText value := by
  constructor
  · rintro ⟨read, accepted⟩
    rcases optional_eq_ok.1 accepted with ⟨rfl, -⟩ | ⟨-, _, accepted, -⟩
    · exact .null
    · rw [text_eq_ok.1 accepted]
      exact .text
  · intro accepted
    cases accepted with
    | null => exact ⟨none, rfl⟩
    | text => exact ⟨_, rfl⟩

theorem exists_optional_natural_iff {value : Json} :
    (∃ read, optional natural value = .ok read) ↔ IsOptionalNatural value := by
  constructor
  · rintro ⟨read, accepted⟩
    rcases optional_eq_ok.1 accepted with ⟨rfl, -⟩ | ⟨-, _, accepted, -⟩
    · exact .null
    · rcases natural_eq_ok.1 accepted with ⟨rfl, small⟩
      exact .natural small
  · intro accepted
    cases accepted with
    | null => exact ⟨none, rfl⟩
    | @natural value small =>
        have read : natural (.integer value) = .ok value := natural_eq_ok.2 ⟨rfl, small⟩
        exact ⟨some value, optional_eq_ok.2 (.inr ⟨nofun, value, read, rfl⟩)⟩

/-! ## Which records are accepted -/

/-- A member of a join has the form that its name asks for; its map is left to the reader. -/
@[mk_iff fitsJoin_iff]
structure FitsJoin (member : String × Json) : Prop where
  table : member.1 = "table" → ∃ name, member.2 = .string name
  aliasName : member.1 = "alias" → ∃ name, member.2 = .string name
  via : member.1 = "via" → IsOptionalText member.2
  conditions : member.1 = "joinConstraints" →
    ∃ conditions, optional constraints member.2 = .ok conditions
  targetKey : member.1 = "targetKey" → IsOptionalText member.2

/--
A member of an embedded query has the form that its name asks for; its map and
its joins are left to the reader.
-/
@[mk_iff fitsSubquery_iff]
structure FitsSubquery (member : String × Json) : Prop where
  table : member.1 = "table" → ∃ name, member.2 = .string name
  select : member.1 = "select" → ∃ path, member.2 = .string path
  conditions : member.1 = "where" → ∃ map, constraintMap member.2 = .ok map
  joins : member.1 = "joins" → ∃ specs, joins member.2 = .ok specs
  skip : member.1 = "skip" → IsOptionalNatural member.2
  limit : member.1 = "limit" → IsOptionalNatural member.2

theorem exists_setJoin_iff {draft : JoinSpec} {member : String × Json}
    (known : member.1 ∈ joinNames.all) :
    (∃ result, setJoin draft member = .ok result) ↔ FitsJoin member := by
  rcases member with ⟨name, value⟩
  simp only [RecordNames.all, joinNames, List.cons_append, List.nil_append, List.mem_cons,
    List.not_mem_nil, or_false] at known
  rw [fitsJoin_iff]
  rcases known with rfl | rfl | rfl | rfl | rfl
  all_goals
    simp [setJoin, setJoinMember, text_eq_ok, exists_optional_text_iff, optional_constraints]

theorem exists_setSubquery_iff {draft : Subquery} {member : String × Json}
    (known : member.1 ∈ subqueryNames.all) :
    (∃ result, setSubquery draft member = .ok result) ↔ FitsSubquery member := by
  rcases member with ⟨name, value⟩
  simp only [RecordNames.all, subqueryNames, List.cons_append, List.nil_append, List.mem_cons,
    List.not_mem_nil, or_false] at known
  rw [fitsSubquery_iff]
  rcases known with rfl | rfl | rfl | rfl | rfl | rfl
  all_goals
    simp [setSubquery, setSubqueryMember, text_eq_ok, constraints, exists_optional_natural_iff]

/-- A join is accepted if it is a record and its members have the forms that they need. -/
theorem exists_join_iff {document : Json} :
    (∃ spec, join document = .ok spec) ↔
      joinNames.Fits document ∧
        ∀ member ∈ joinNames.members document, FitsJoin member := by
  simp only [join_eq_ok, exists_and_left]
  refine and_congr_right fun form => ?_
  have each : ∀ member ∈ joinNames.members document, ∀ draft,
      (∃ result, setJoin draft member = .ok result) ↔ FitsJoin member :=
    fun member listed _ => exists_setJoin_iff (form.known member listed)
  exact exists_foldlM_iff each _

/-- An embedded query is accepted if it is a record and its members have the forms they need. -/
theorem exists_subquery_iff {document : Json} :
    (∃ query, subquery document = .ok query) ↔
      subqueryNames.Fits document ∧
        ∀ member ∈ subqueryNames.members document, FitsSubquery member := by
  simp only [subquery_eq_ok, exists_and_left]
  refine and_congr_right fun form => ?_
  have each : ∀ member ∈ subqueryNames.members document, ∀ draft,
      (∃ result, setSubquery draft member = .ok result) ↔ FitsSubquery member :=
    fun member listed _ => exists_setSubquery_iff (form.known member listed)
  exact exists_foldlM_iff each _

/-! ## Which documents are accepted, level by level -/

section Below

variable {document : Json}

/-- Constraints that may be missing are accepted if they are null or a map. -/
theorem exists_optional_constraints_iff {value : Json} (judged : Judged value) :
    (∃ conditions, optional constraints value = .ok conditions) ↔
      (value ≠ .null → IsMap value) := by
  simp only [optional_eq_ok, constraints, mapError_eq_ok, ← judged.accepted]
  constructor
  · rintro ⟨_, ⟨rfl, -⟩ | ⟨-, map, read, -⟩⟩
    · exact fun present => absurd rfl present
    · exact fun _ => ⟨map, read⟩
  · intro given
    by_cases missing : value = .null
    · exact ⟨none, .inl ⟨missing, rfl⟩⟩
    · rcases given missing with ⟨map, read⟩
      exact ⟨some map, .inr ⟨missing, map, read, rfl⟩⟩

theorem join_accepted_iff (below : JudgedBelow document) :
    (∃ spec, join document = .ok spec) ↔ IsJoin document := by
  have inside {name : String} {value : Json}
      (member : (name, value) ∈ joinNames.members document) : Judged value :=
    below value (sizeOf_member_lt member)
  rw [exists_join_iff]
  constructor
  · rintro ⟨form, each⟩
    refine .record form ?_ ?_ ?_ ?_ ?_
    · exact fun value member => (each _ member).table rfl
    · exact fun value member => (each _ member).aliasName rfl
    · exact fun value member => (each _ member).via rfl
    · exact fun value member =>
        (exists_optional_constraints_iff (inside member)).1 ((each _ member).conditions rfl)
    · exact fun value member => (each _ member).targetKey rfl
  · intro accepted
    cases accepted with
    | record form table aliasName via conditions targetKey =>
        refine ⟨form, fun ⟨name, value⟩ member => ⟨?_, ?_, ?_, ?_, ?_⟩⟩
        · rintro rfl
          exact table value member
        · rintro rfl
          exact aliasName value member
        · rintro rfl
          exact via value member
        · rintro rfl
          exact (exists_optional_constraints_iff (inside member)).2 (conditions value member)
        · rintro rfl
          exact targetKey value member

/-- A list of joins is accepted if each of its items is. -/
theorem exists_joins_iff {value : Json} :
    (∃ specs, joins value = .ok specs) ↔
      ∃ items, value = .array items ∧ ∀ item ∈ items, ∃ spec, join item = .ok spec := by
  simp only [joins_eq_ok, ← mapM_eq_ok, ← exists_mapM_iff]
  constructor
  · rintro ⟨specs, items, rfl, read⟩
    exact ⟨items, rfl, specs, read⟩
  · rintro ⟨items, rfl, specs, read⟩
    exact ⟨specs, items, rfl, read⟩

theorem subquery_accepted_iff (below : JudgedBelow document) :
    (∃ query, subquery document = .ok query) ↔ IsSubquery document := by
  have inside {name : String} {value : Json}
      (member : (name, value) ∈ subqueryNames.members document) :
      sizeOf value < sizeOf document := sizeOf_member_lt member
  -- An item of the list of joins is two levels below the query.
  have joined {items : List Json} {item : Json}
      (member : ("joins", .array items) ∈ subqueryNames.members document)
      (listed : item ∈ items) : (∃ spec, join item = .ok spec) ↔ IsJoin item := by
    have outer := inside member
    have inner := List.sizeOf_lt_of_mem listed
    simp only [Json.array.sizeOf_spec] at outer
    exact join_accepted_iff (below.mono (by omega))
  rw [exists_subquery_iff]
  constructor
  · rintro ⟨form, each⟩
    refine .record form ?_ ?_ ?_ ?_ ?_ ?_ ?_
    · exact fun value member => (each _ member).table rfl
    · exact fun value member => (each _ member).select rfl
    · exact fun value member =>
        (below value (inside member)).accepted.1 ((each _ member).conditions rfl)
    · intro value member
      rcases exists_joins_iff.1 ((each _ member).joins rfl) with ⟨items, rfl, -⟩
      exact ⟨items, rfl⟩
    · intro items member item listed
      rcases exists_joins_iff.1 ((each _ member).joins rfl) with ⟨_, same, read⟩
      cases same
      exact (joined member listed).1 (read item listed)
    · exact fun value member => (each _ member).skip rfl
    · exact fun value member => (each _ member).limit rfl
  · intro accepted
    cases accepted with
    | record form table select conditions joins eachJoin skip limit =>
        refine ⟨form, fun ⟨name, value⟩ member => ⟨?_, ?_, ?_, ?_, ?_, ?_⟩⟩
        · rintro rfl
          exact table value member
        · rintro rfl
          exact select value member
        · rintro rfl
          exact (below value (inside member)).accepted.2 (conditions value member)
        · rintro rfl
          rcases joins value member with ⟨items, rfl⟩
          refine exists_joins_iff.2 ⟨items, rfl, fun item listed => ?_⟩
          exact (joined member listed).2 (eachJoin items member item listed)
        · rintro rfl
          exact skip value member
        · rintro rfl
          exact limit value member

/-- A constraint is read of the operands that belong to the token. -/
theorem operand_accepted_iff {field token : String} {value : Json} (below : JudgedBelow value) :
    (∃ read, constraint field token value = .ok read) ↔ IsOperand token value := by
  simp only [constraint_eq_ok]
  constructor
  · rintro ⟨read, named, operand⟩
    cases read with
    | compare comparison given => exact .comparison (mem_comparisonTokens.2 named) operand.1
    | matching affix text => exact .pattern (mem_patternTokens.2 named) operand
    | present expected =>
        obtain rfl : token = "ex" := named
        obtain rfl : value = .bool expected := operand
        exact .presence
    | inList negated values =>
        obtain rfl : value = .array values := operand
        exact .list (mem_listTokens.2 named)
    | inQuery negated query =>
        exact .query (mem_queryTokens.2 named) ((subquery_accepted_iff below).1 ⟨query, operand⟩)
  · intro accepted
    cases accepted with
    | @comparison _ comparison _ named scalar =>
        exact ⟨.compare comparison value, mem_comparisonTokens.1 named, scalar, rfl⟩
    | @pattern _ text affix _ named printed =>
        exact ⟨.matching affix text, mem_patternTokens.1 named, printed⟩
    | @presence expected => exact ⟨.present expected, rfl, rfl⟩
    | @list _ negated items named => exact ⟨.inList negated items, mem_listTokens.1 named, rfl⟩
    | @query _ negated _ named form =>
        rcases (subquery_accepted_iff below).2 form with ⟨query, read⟩
        exact ⟨.inQuery negated query, mem_queryTokens.1 named, read⟩

/-- A document is accepted as a map if its members are objects of accepted operands. -/
theorem map_accepted_iff (below : JudgedBelow document) :
    (∃ map, constraintMap document = .ok map) ↔ IsMap document := by
  have operands {member : Member} (inside : member ∈ constraintMembers document) :
      (∃ addition, member.Reads addition) ↔ IsOperand member.token member.value := by
    have operand : (∃ read, constraint member.field member.token member.value = .ok read) ↔
        IsOperand member.token member.value :=
      operand_accepted_iff (below.mono (sizeOf_operand_lt inside))
    rw [← operand]
    constructor
    · rintro ⟨addition, -, read⟩
      exact ⟨addition.2, read⟩
    · rintro ⟨read, accepted⟩
      exact ⟨(member.field, read), rfl, accepted⟩
  have additions : (∃ additions, List.Forall₂ Member.Reads (constraintMembers document) additions) ↔
      ∀ member ∈ constraintMembers document, IsOperand member.token member.value := by
    rw [exists_forall₂_iff]
    exact forall₂_congr fun member inside => operands inside
  constructor
  · rintro ⟨map, accepted⟩
    rcases constraintMap_eq_ok.1 accepted with ⟨⟨fields, rfl, maps⟩, read, members, -⟩
    exact .object (checkMaps_eq_ok.1 maps) (additions.1 ⟨read, members⟩)
  · intro accepted
    cases accepted with
    | @object fields maps each =>
        rcases additions.2 each with ⟨read, members⟩
        exact ⟨_, constraintMap_eq_ok.2 ⟨⟨fields, rfl, checkMaps_eq_ok.2 maps⟩, read, members, rfl⟩⟩

/-! ## What is read, level by level -/

/-- A text that has to be there is the one that is given. -/
theorem givenText?_of_required {given : Option Json} {read : String}
    (own : match given with
      | none => read = ""
      | some value => text value = .ok read)
    (present : ∃ value, given = some value) : givenText? given = some read := by
  rcases present with ⟨value, rfl⟩
  obtain rfl := text_eq_ok.1 own
  rfl

theorem givenText?_of_optional {given : Option Json} {read : Option String}
    (own : match given with
      | none => read = none
      | some value => optional text value = .ok read) : givenText? given = read := by
  cases given with
  | none => exact own.symm
  | some value =>
      rcases optional_eq_ok.1 own with ⟨rfl, rfl⟩ | ⟨-, _, read, rfl⟩
      · rfl
      · obtain rfl := text_eq_ok.1 read
        rfl

theorem givenNatural?_of_optional {given : Option Json} {read : Option Nat}
    (own : match given with
      | none => read = none
      | some value => optional natural value = .ok read) : givenNatural? given = read := by
  cases given with
  | none => exact own.symm
  | some value =>
      rcases optional_eq_ok.1 own with ⟨rfl, rfl⟩ | ⟨-, _, read, rfl⟩
      · rfl
      · obtain ⟨rfl, -⟩ := natural_eq_ok.1 read
        rfl

theorem namesJoin {spec : JoinSpec} (read : join document = .ok spec) :
    NamesJoin document spec := by
  have form := (join_eq_ok.1 read).1
  constructor
  · exact givenText?_of_required (join_field JoinWritten.table read)
      (form.exists_lookup (by decide))
  · exact givenText?_of_required (join_field JoinWritten.aliasName read)
      (form.exists_lookup (by decide))
  · exact givenText?_of_optional (join_field JoinWritten.via read)
  · exact givenText?_of_optional (join_field JoinWritten.targetKey read)

theorem describesJoin (below : JudgedBelow document) {spec : JoinSpec}
    (read : join document = .ok spec) : DescribesJoin document spec := by
  have conditions := join_conditions read
  cases given : (joinNames.members document).lookup "joinConstraints" with
  | none =>
      rw [given] at conditions
      exact .unconstrained (namesJoin read) (by simp [given]) conditions
  | some value =>
      rw [given] at conditions
      rcases optional_eq_ok.1 conditions with ⟨rfl, absent⟩ | ⟨present, map, inner, found⟩
      · exact .unconstrained (namesJoin read) (by simp [given]) absent
      · have judged : Judged value := below value (sizeOf_member_lt (mem_of_lookup given))
        exact .constrained (namesJoin read) given present found
          (judged.described map (mapError_eq_ok.1 inner))

theorem describesSubquery (below : JudgedBelow document) {query : Subquery}
    (read : subquery document = .ok query) : DescribesSubquery document query := by
  have form := (subquery_eq_ok.1 read).1
  have conditions := subquery_conditions read
  have joins := subquery_joins read
  refine .record ?_ ?_ ?_ ?_ ?_ ?_ ?_ ?_
  · exact givenText?_of_required (subquery_field SubqueryWritten.table read)
      (form.exists_lookup (by decide))
  · exact givenText?_of_required (subquery_field SubqueryWritten.select read)
      (form.exists_lookup (by decide))
  · intro missing
    rwa [missing] at conditions
  · intro value given
    rw [given] at conditions
    exact (below value (sizeOf_member_lt (mem_of_lookup given))).described _ conditions
  · intro missing
    rwa [missing] at joins
  · intro items given
    rw [given] at joins
    rcases joins with ⟨_, same, each⟩
    cases same
    have outer := sizeOf_member_lt (mem_of_lookup given)
    simp only [Json.array.sizeOf_spec] at outer
    have inside : ∀ item ∈ items, JudgedBelow item := fun item listed =>
      below.mono (by have inner := List.sizeOf_lt_of_mem listed; omega)
    have both := (List.forall₂_and_left _ _).2 ⟨inside, each⟩
    refine both.imp ?_
    rintro item spec ⟨judgedBelow, read⟩
    exact describesJoin judgedBelow read
  · exact givenNatural?_of_optional (subquery_field SubqueryWritten.skip read)
  · exact givenNatural?_of_optional (subquery_field SubqueryWritten.limit read)

theorem describes {member : Member} {read : Constraint} (below : JudgedBelow member.value)
    (accepted : constraint member.field member.token member.value = .ok read) :
    Describes member read := by
  rcases member with ⟨field, token, value⟩
  rcases constraint_eq_ok.1 accepted with ⟨named, operand⟩
  cases read with
  | compare comparison given =>
      obtain ⟨-, rfl⟩ := operand
      exact .compare (mem_comparisonTokens.2 named)
  | matching affix text => exact .matching (mem_patternTokens.2 named) operand
  | present expected =>
      obtain rfl : token = "ex" := named
      obtain rfl : value = .bool expected := operand
      exact .present
  | inList negated values =>
      obtain rfl : value = .array values := operand
      exact .inList (mem_listTokens.2 named)
  | inQuery negated query =>
      exact .inQuery (mem_queryTokens.2 named) (describesSubquery below operand)

theorem describesMap (below : JudgedBelow document) {map : ConstraintMap}
    (accepted : constraintMap document = .ok map) : DescribesMap document map := by
  rcases constraintMap_eq_ok.1 accepted with ⟨-, additions, members, rfl⟩
  have agree : ∀ member addition, Member.Reads member addition → member.field = addition.1 :=
    fun _ _ read => read.1.symm
  refine .map ?_ ?_
  · rw [ConstraintMap.entries_build, List.map_map, map_key_eq agree members]
    exact List.map_id _
  · intro entry inside
    rw [ConstraintMap.entries_build] at inside
    rcases List.mem_map.1 inside with ⟨field, -, rfl⟩
    have own := forall₂_filter_key Member.field Prod.fst agree members field
    have inside : ∀ member ∈ (constraintMembers document).filter fun member =>
        member.field = field, JudgedBelow member.value := fun member listed =>
      below.mono (sizeOf_operand_lt (List.mem_of_mem_filter listed))
    rw [ConstraintMap.entryOf, List.forall₂_map_right_iff]
    have both := (List.forall₂_and_left _ _).2 ⟨inside, own⟩
    refine both.imp ?_
    rintro member addition ⟨judgedBelow, read⟩
    exact describes judgedBelow read.2

end Below

/-- Every document is judged, from the inside out. -/
theorem judged (document : Json) : Judged document := by
  induction size : sizeOf document using Nat.strongRecOn generalizing document with
  | ind size step =>
      subst size
      have below : JudgedBelow document := fun inner smaller => step _ smaller inner rfl
      exact ⟨map_accepted_iff below, fun _ => describesMap below⟩

/--
A document is read as a map of constraints exactly if it is one, at every depth,
and the map has what the document says: a constraint for each member, in
document order within each field, with the operator that the token names and the
value that was given.
-/
theorem constraints_read_by_grammar (document : Json) :
    ((∃ map, constraintMap document = .ok map) ↔ IsMap document) ∧
      ∀ map, constraintMap document = .ok map → DescribesMap document map :=
  ⟨(judged document).accepted, (judged document).described⟩

/-- Guests with a later paid booking in a large hotel, whose name is not that of a staff member. -/
def bookedGuests : Json :=
  .object
    [("id", .object [("fi", .object
        [("table", .string "bookings"), ("select", .string "guest"),
          ("where", .object [("paid", .object [("ex", .bool true)])]),
          ("joins", .array
            [.array [.string "hotels", .string "hotel", .string "hotel", .null, .string "code"],
              .object
                [("table", .string "rooms"), ("alias", .string "room"),
                  ("joinConstraints", .object
                    [("hotel", .object [("eq", .string "hotel.id")]),
                      ("beds", .object [("gte", .integer 2)])])]]),
          ("skip", .integer 5), ("limit", .integer 10)])]),
      ("name", .object
        [("nfi", .array [.string "staff", .string "name", .object []]),
          ("str", .integer 4)]),
      ("id", .object [("neq", .null)])]

/-- What is read of `bookedGuests`. -/
def bookedGuestsMap : ConstraintMap :=
  ⟨[⟨"id",
      [.inQuery false
        ⟨"bookings", "guest", ⟨[⟨"paid", [.present true]⟩]⟩,
          [⟨"hotels", "hotel", some "hotel", none, some "code"⟩,
            ⟨"rooms", "room", none,
              some ⟨[⟨"hotel", [.compare .equal (.string "hotel.id")]⟩,
                ⟨"beds", [.compare .greaterOrEqual (.integer 2)]⟩]⟩, none⟩],
          some 5, some 10⟩,
        .compare .notEqual .null]⟩,
    ⟨"name", [.inQuery true ⟨"staff", "name", .empty, [], none, none⟩, .matching .start "4"]⟩]⟩

theorem constraints_read_by_grammar_bookedGuests :
    constraintMap bookedGuests = .ok bookedGuestsMap ∧ IsMap bookedGuests ∧
      DescribesMap bookedGuests bookedGuestsMap := by
  have read : constraintMap bookedGuests = .ok bookedGuestsMap := rfl
  rcases constraints_read_by_grammar bookedGuests with ⟨accepted, described⟩
  exact ⟨read, accepted.1 ⟨_, read⟩, described _ read⟩

end SqlScribe.Document
