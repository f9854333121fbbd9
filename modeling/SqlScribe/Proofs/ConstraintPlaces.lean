import Mathlib
import SqlScribe.Proofs.Document.Settled

/-!
# Where a document of constraints stands

The text of a query can hold documents of constraints in many places: for the
query itself, for one of its joins, and for the queries inside constraints and
their joins.  `Place` lists them, at every depth, with the maps that they were
read as.

Outside embedded queries, a map has one constraint for each written member.
Inside one, a member whose name is written again is overwritten and gives no
constraint.  So a document means the same wherever it stands if it names no
field twice, and no operator of one field.
-/

namespace SqlScribe

open Checked

/-! ## How many constraints a map has -/

theorem ConstraintMap.length_members_build (additions : List (String × Constraint)) :
    (build additions).members.length = additions.length := by
  rw [members_build, (groupedBy_perm Prod.fst additions).length_eq]

namespace Document

/-! ## Queries -/

def queryNames : RecordNames where
  required := ["table"]
  others := ["select", "joins", "where", "sort", "skip", "limit"]

theorem queryNames_shapes : queryNames.Shapes queryShape := ⟨rfl, rfl, by decide⟩

/-- The constraints and the joins of a query are set by the members of their own names. -/
theorem setQueryMember_sets {draft result : Query} {member : String × Json}
    (written : setQueryMember draft member.1 member.2 = .ok result) :
    Sets Query.conditions "where" constraints draft member result ∧
      Sets Query.joins "joins" joins draft member result := by
  rcases member with ⟨name, value⟩
  unfold setQueryMember at written
  split at written
  all_goals
    simp only [map_eq_ok, Except.ok.injEq] at written
    rcases written with ⟨_, read, rfl⟩
    simp_all [Sets]

/-- The constraints of a query are those of its map; without a map it has none. -/
theorem query_conditions {document : Json} {read : Query} (accepted : query document = .ok read) :
    match (queryNames.members document).lookup "where" with
    | none => read.conditions = .empty
    | some value => constraintMap value = .ok read.conditions := by
  rcases queryNames_shapes.record_members rfl accepted with ⟨distinct, written⟩
  have conditions := field_of_members (fun _ _ _ own => (setQueryMember_sets own).1) distinct written
  simp only [constraints, mapError_eq_ok] at conditions
  exact conditions

/-- The joins of a query are those of its list; without a list it has none. -/
theorem query_joins {document : Json} {read : Query} (accepted : query document = .ok read) :
    match (queryNames.members document).lookup "joins" with
    | none => read.joins = []
    | some value => ∃ items, value = .array items ∧
        List.Forall₂ (fun item spec => join item = .ok spec) items read.joins := by
  rcases queryNames_shapes.record_members rfl accepted with ⟨distinct, written⟩
  have joins := field_of_members (fun _ _ _ own => (setQueryMember_sets own).2) distinct written
  simp only [joins_eq_ok] at joins
  exact joins

/-! ## Places -/

/-- The members that count: all of them, or the latest ones where the document is settled. -/
def visible (nested : Bool) (members : List (String × Json)) : List (String × Json) :=
  if nested then Json.latest members else members

/-- What is left of a document of constraints: all of it, or the latest members. -/
def surviving (nested : Bool) (document : Json) : Json :=
  if nested then latestConstraints document else document

/--
A document of constraints among the members of a query, or of a query inside a
constraint, together with the map that it was read as.
-/
inductive MapAmong (nested : Bool) (members : List (String × Json)) (conditions : ConstraintMap)
    (joins : List JoinSpec) : Json → ConstraintMap → Prop
  | own {document : Json} (given : (visible nested members).lookup "where" = some document) :
      MapAmong nested members conditions joins document conditions
  | join {items : List Json} {item document : Json} {spec : JoinSpec} {map : ConstraintMap}
      (listed : (visible nested members).lookup "joins" = some (.array items))
      (paired : (item, spec) ∈ items.zip joins)
      (given : (visible nested (joinNames.members item)).lookup "joinConstraints" =
        some document)
      (constrained : spec.conditions = some map) :
      MapAmong nested members conditions joins document map

/--
A document of constraints in the document of a query, together with the map that
it was read as; `nested` tells those inside embedded queries.
-/
inductive Place (document : Json) (query : Query) : Bool → Json → ConstraintMap → Prop
  | outer {constraints : Json} {map : ConstraintMap}
      (among : MapAmong false (queryNames.members document) query.conditions query.joins
        constraints map) :
      Place document query false constraints map
  | inner {nested negated : Bool} {constraints inside : Json} {map innerMap : ConstraintMap}
      {member : Member} {subquery : Subquery}
      (around : Place document query nested constraints map)
      (written : member ∈ constraintMembers (surviving nested constraints))
      (named : (member.token, negated) ∈ queryTokens)
      (operand : Document.subquery member.value.settled = .ok subquery)
      (among : MapAmong true (subqueryNames.members member.value) subquery.conditions
        subquery.joins inside innerMap) :
      Place document query true inside innerMap

/-- What a map says of the document of constraints that it was read from. -/
structure MeansWritten (nested : Bool) (document : Json) (map : ConstraintMap) : Prop where
  read : constraintMap (settleConstraints (surviving nested document)) = .ok map
  /-- There is one constraint for each member that is left. -/
  kept : map.members.length = (constraintMembers (surviving nested document)).length
  /-- Every query in a member that is left is a constraint of the map. -/
  queries : ∀ member ∈ constraintMembers (surviving nested document), ∀ negated,
    (member.token, negated) ∈ queryTokens →
      ∃ subquery, Document.subquery member.value.settled = .ok subquery ∧
        (member.field, .inQuery negated subquery) ∈ map.members
  /-- If all names stand once, the map is that of the written document wherever it stands. -/
  alike : NamesOnce document →
    constraintMap (settleConstraints document) = .ok map ∧
      map.members.length = (constraintMembers document).length

theorem surviving_of_namesOnce {document : Json} (once : NamesOnce document) (nested : Bool) :
    surviving nested document = document := by
  cases nested with
  | false => rfl
  | true => exact latestConstraints_of_namesOnce once

/-- A constraint whose token is that of a membership in a query has the query of its operand. -/
theorem inQuery_of_constraint
    {field token : String} {negated : Bool} {value : Json} {read : Constraint}
    (named : (token, negated) ∈ queryTokens)
    (accepted : constraint field token value = .ok read) :
    ∃ query, subquery value = .ok query ∧ read = .inQuery negated query := by
  rw [mem_queryTokens.1 named] at accepted
  rcases constraint_token_eq_ok.1 accepted with ⟨operator, operand⟩
  cases read <;> cases operator
  exact ⟨_, operand, rfl⟩

theorem meansWritten_of_read {nested : Bool} {document : Json} {map : ConstraintMap}
    (read : constraintMap (settleConstraints (surviving nested document)) = .ok map) :
    MeansWritten nested document map := by
  rcases (constraintMap_eq_ok.1 read).2 with ⟨additions, members, rfl⟩
  rw [constraintMembers_settle, List.forall₂_map_left_iff] at members
  have kept := ConstraintMap.length_members_build additions
  rw [← members.length_eq] at kept
  refine ⟨read, kept, ?_, fun once => ?_⟩
  · intro member present negated named
    rcases exists_right_of_forall₂ members member present with ⟨⟨field, read⟩, added, same, given⟩
    rcases inQuery_of_constraint named given with ⟨query, operand, constrained⟩
    cases same
    cases constrained
    refine ⟨query, operand, ?_⟩
    rw [ConstraintMap.members_build, (groupedBy_perm Prod.fst additions).mem_iff]
    exact added
  · rw [← surviving_of_namesOnce once nested]
    exact ⟨read, kept⟩

/-! ## Reading at a place -/

theorem lookup_overMember {names : RecordNames} {shape : RecordShape} (agree : names.Shapes shape)
    (member name : String) (change : Json → Json) (document : Json) :
    (names.members (overMember shape member change document)).lookup name =
      ((names.members document).lookup name).map fun value =>
        if name = member then change value else value := by
  rw [agree.members_overMember]
  exact lookup_map (fun name value => if name = member then change value else value) name _

theorem lookup_settled {names : RecordNames} (distinct : names.all.Nodup) (name : String)
    (document : Json) :
    (names.members document.settled).lookup name =
      ((Json.latest (names.members document)).lookup name).map Json.settled := by
  rw [RecordNames.members_settled distinct]
  exact lookup_map (fun _ => Json.settled) name _

/-- A join with constraints has those of its map. -/
theorem constraintMap_of_join {item value : Json} {spec : JoinSpec} {map : ConstraintMap}
    (accepted : join item = .ok spec)
    (given : (joinNames.members item).lookup "joinConstraints" = some value)
    (constrained : spec.conditions = some map) : constraintMap value = .ok map := by
  have conditions := join_conditions accepted
  rw [given, constrained] at conditions
  cases value with
  | null => cases conditions
  | _ =>
      simp only [optional, constraints, map_eq_ok, mapError_eq_ok, Option.some.injEq] at conditions
      rcases conditions with ⟨_, read, rfl⟩
      exact read

/--
What a record was read as tells the maps among its members, if the members of the
record and of its joins are changed in the same way.
-/
theorem constraintMap_of_among (changeMap changeJoin : Json → Json)
    {nested : Bool} {members changed : List (String × Json)}
    {conditions map : ConstraintMap} {joins : List JoinSpec} {constraints : Json}
    (own : changed.lookup "where" = ((visible nested members).lookup "where").map changeMap)
    (listed : ∀ items, (visible nested members).lookup "joins" = some (.array items) →
      changed.lookup "joins" = some (.array (items.map changeJoin)))
    (inJoin : ∀ item, (joinNames.members (changeJoin item)).lookup "joinConstraints" =
      ((visible nested (joinNames.members item)).lookup "joinConstraints").map changeMap)
    (readOwn : match changed.lookup "where" with
      | none => conditions = .empty
      | some value => constraintMap value = .ok conditions)
    (readJoins : match changed.lookup "joins" with
      | none => joins = []
      | some value => ∃ items, value = .array items ∧
          List.Forall₂ (fun item spec => join item = .ok spec) items joins)
    (among : MapAmong nested members conditions joins constraints map) :
    constraintMap (changeMap constraints) = .ok map := by
  cases among with
  | own given =>
      rw [own, given] at readOwn
      exact readOwn
  | join written paired given constrained =>
      rw [listed _ written] at readJoins
      rcases readJoins with ⟨_, same, specs⟩
      cases same
      rw [List.forall₂_map_left_iff] at specs
      have accepted := List.forall₂_zip specs paired
      refine constraintMap_of_join accepted ?_ constrained
      rw [inJoin, given]
      rfl

/-- Outside embedded queries, the operands of a map are settled, and nothing else. -/
theorem constraintMap_outer {document constraints : Json} {query : Query} {map : ConstraintMap}
    (accepted : Document.query (settleQuery document) = .ok query)
    (among : MapAmong false (queryNames.members document) query.conditions query.joins
      constraints map) :
    constraintMap (settleConstraints constraints) = .ok map := by
  refine constraintMap_of_among settleConstraints settleJoin ?_ ?_ ?_ (query_conditions accepted)
    (query_joins accepted) among
  · rw [settleQuery, lookup_overMember queryNames_shapes, lookup_overMember queryNames_shapes]
    simp [visible, Function.comp_def]
  · intro items given
    rw [settleQuery, lookup_overMember queryNames_shapes, lookup_overMember queryNames_shapes]
    simp only [visible, Bool.false_eq_true, if_false] at given
    simp [given, overItems]
  · intro item
    rw [settleJoin, lookup_overMember joinNames_shapes]
    simp [visible]

/-- Inside an embedded query, a map is settled as a whole. -/
theorem constraintMap_inner {operand constraints : Json} {query : Subquery} {map : ConstraintMap}
    (accepted : subquery operand.settled = .ok query)
    (among : MapAmong true (subqueryNames.members operand) query.conditions query.joins
      constraints map) :
    constraintMap constraints.settled = .ok map := by
  refine constraintMap_of_among Json.settled Json.settled ?_ ?_ ?_ (subquery_conditions accepted)
    (subquery_joins accepted) among
  · exact lookup_settled subqueryNames_shapes.distinct _ _
  · intro items given
    rw [visible, if_pos rfl] at given
    rw [lookup_settled subqueryNames_shapes.distinct, given, Option.map_some, Json.settled_array]
  · exact fun item => lookup_settled joinNames_shapes.distinct _ _

end Document

open Document

/--
A document of constraints in the text of a query was read as the map of its
members: of all of them, or inside embedded queries of those that no later one
overwrites.  If all its names stand once, that is the same map.
-/
theorem constraints_mean_written {text : String} {document : Json} {query : Query}
    (parsed : Json.read text = .ok document) (accepted : queryOfText text = .ok query)
    {nested : Bool} {constraints : Json} {map : ConstraintMap}
    (place : Place document query nested constraints map) :
    MeansWritten nested constraints map := by
  have read : Document.query (settleQuery document) = .ok query := by
    rw [queryOfText, ofText, parsed] at accepted
    exact mapError_eq_ok.1 accepted
  apply meansWritten_of_read
  cases place with
  | outer among => exact constraintMap_outer read among
  | inner around written named operand among =>
      have whole := constraintMap_inner operand among
      rwa [settled_eq_settleConstraints whole] at whole

/-- A query for the rows that are in another one, with these constraints on the other one. -/
def asksInside (constraints : Json) : Json :=
  .object
    [("table", .string "t"),
      ("where", .object [("x", .object
        [("fi", .object
          [("table", .string "y"), ("select", .string "id"), ("where", constraints)])])])]

/-- The query of `asksInside`, with the map that its constraints were read as. -/
def asksInsideQuery (map : ConstraintMap) : Query :=
  { table := "t"
    conditions := ⟨[⟨"x", [.inQuery false ⟨"y", "id", map, [], none, none⟩]⟩]⟩ }

theorem place_asksInside {constraints : Json} {map : ConstraintMap}
    (operand : Document.subquery (Json.object
      [("table", .string "y"), ("select", .string "id"), ("where", constraints)]).settled =
        .ok ⟨"y", "id", map, [], none, none⟩) :
    Place (asksInside constraints) (asksInsideQuery map) true constraints map := by
  have around : Place (asksInside constraints) (asksInsideQuery map) false _ _ :=
    .outer (.own rfl)
  have named : ("fi", false) ∈ queryTokens := List.mem_cons_self
  exact .inner around List.mem_cons_self named operand (.own rfl)

/-- Two constraints on one field, which is named once. -/
def boundedField : Json := .object [("a", .object [("gt", .integer 1), ("lt", .integer 9)])]

def boundedMap : ConstraintMap :=
  ⟨[⟨"a", [.compare .greater (.integer 1), .compare .less (.integer 9)]⟩]⟩

theorem constraints_mean_written_boundedField :
    Json.read (asksInside boundedField).render = .ok (asksInside boundedField) ∧
      queryOfText (asksInside boundedField).render = .ok (asksInsideQuery boundedMap) ∧
      Place (asksInside boundedField) (asksInsideQuery boundedMap) true boundedField boundedMap ∧
      constraintMap (settleConstraints boundedField) = .ok boundedMap := by
  have parsed : Json.read (asksInside boundedField).render = .ok (asksInside boundedField) := by
    cbv
  have accepted : queryOfText (asksInside boundedField).render =
      .ok (asksInsideQuery boundedMap) := by cbv
  have place : Place (asksInside boundedField) (asksInsideQuery boundedMap) true boundedField
      boundedMap := place_asksInside (by cbv)
  have once : NamesOnce boundedField := by
    simp [NamesOnce, boundedField]
  exact ⟨parsed, accepted, place, ((constraints_mean_written parsed accepted place).alike once).1⟩

/-- Two constraints on one field, which is named twice. -/
def repeatedField : Json :=
  .object [("a", .object [("gt", .integer 1)]), ("a", .object [("lt", .integer 9)])]

def laterMap : ConstraintMap := ⟨[⟨"a", [.compare .less (.integer 9)]⟩]⟩

/-- One document of constraints can mean different things in two places. -/
theorem constraints_differ_repeatedField :
    (∃ text document query, Json.read text = .ok document ∧ queryOfText text = .ok query ∧
        Place document query false repeatedField boundedMap) ∧
      (∃ text document query, Json.read text = .ok document ∧ queryOfText text = .ok query ∧
        Place document query true repeatedField laterMap) ∧
      boundedMap ≠ laterMap := by
  refine ⟨?_, ?_, fun same => ?_⟩
  · let document : Json := .object [("table", .string "y"), ("where", repeatedField)]
    exact ⟨document.render, document, { table := "y", conditions := boundedMap }, by cbv, by cbv,
      .outer (.own rfl)⟩
  · exact ⟨(asksInside repeatedField).render, asksInside repeatedField, asksInsideQuery laterMap,
      by cbv, by cbv, place_asksInside (by cbv)⟩
  · have sizes := congrArg (fun map => map.members.length) same
    cases sizes

end SqlScribe
