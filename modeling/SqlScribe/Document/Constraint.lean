import SqlScribe.Constraint
import SqlScribe.Document.Decode

/-!
# Constraints, embedded queries and joins in documents

A constraint map is an object of fields, each with an object of operators.  It
is read whole, as a map of maps, before any of its operators is looked at; then
the operators are taken in order.  Both kinds of objects keep their repeated
members.

Embedded queries are values of operators, so the readers of maps, queries and
joins call each other.  All of them go down the document.
-/

namespace SqlScribe.Document

/-- An embedded query: where its column comes from, and which rows count. -/
def subqueryShape : RecordShape :=
  ⟨"SubqueryDescriptor", ["table", "select", "where", "joins", "skip", "limit"], 2, true⟩

/-- A join. -/
def joinShape : RecordShape :=
  ⟨"JoinSpec", ["table", "alias", "via", "joinConstraints", "targetKey"], 2, true⟩

/-! ## Operands -/

/-- The operand of a comparison. -/
def scalarOperand (field : String) (operator : Operator) (value : Json) : Except SqlError Json :=
  if value.isScalar then .ok value
  else .error (.invalidValue field (.operand operator .scalar value))

/-- The text of a pattern; numbers and truth values stand for their text. -/
def patternOperand (field : String) (operator : Operator) : Json → Except SqlError String
  | .string text => .ok text
  | .number value => .ok (String.ofList value.text)
  | .bool value => .ok (String.ofList (Json.boolText value))
  | other => .error (.invalidValue field (.operand operator .text other))

/-- The operand of a test for presence. -/
def truthOperand (field : String) (operator : Operator) : Json → Except SqlError Bool
  | .bool value => .ok value
  | other => .error (.invalidValue field (.operand operator .truth other))

/-- The operand of a test for membership in a list. -/
def listOperand (field : String) (operator : Operator) : Json → Except SqlError (List Json)
  | .array items => .ok items
  | other => .error (.invalidValue field (.operand operator .list other))

/-! ## Records -/

/-- Writes a member of an embedded query; its map and its joins are read by the given readers. -/
def setSubqueryMember
    (draft : Subquery) (name : String) (value : Json)
    (conditions : Unit → Decoded ConstraintMap)
    (joins : Unit → Decoded (List JoinSpec)) :
    Decoded Subquery :=
  match name with
  | "table" => (text value).map fun table => { draft with table }
  | "select" => (text value).map fun select => { draft with select }
  | "where" => (conditions ()).map fun conditions => { draft with conditions }
  | "joins" => (joins ()).map fun joins => { draft with joins }
  | "skip" => (optional natural value).map fun skip => { draft with skip }
  | "limit" => (optional natural value).map fun limit => { draft with limit }
  | _ => .ok draft

/-- Writes a member of a join; its map is read by the given reader. -/
def setJoinMember
    (draft : JoinSpec) (name : String) (value : Json)
    (conditions : Unit → Decoded ConstraintMap) :
    Decoded JoinSpec :=
  match name with
  | "table" => (text value).map fun table => { draft with table }
  | "alias" => (text value).map fun aliasName => { draft with aliasName }
  | "via" => (optional text value).map fun via => { draft with via }
  | "joinConstraints" =>
      (optional (fun _ => conditions ()) value).map fun conditions => { draft with conditions }
  | "targetKey" => (optional text value).map fun targetKey => { draft with targetKey }
  | _ => .ok draft

/-- Whether every member is an object, as the entries of a map of maps are. -/
def checkMaps : List (String × Json) → Except SqlError Unit
  | [] => .ok ()
  | (_, .object _) :: rest => checkMaps rest
  | (_, other) :: _ => .error (.invalidDescriptor (.wrongType other .map))

mutual

/-- The constraint that an operator makes of its operand. -/
def constraintOf (field : String) (operator : Operator) (value : Json) :
    Except SqlError Constraint :=
  match operator with
  | .compare comparison => (scalarOperand field operator value).map (.compare comparison)
  | .matching affix => (patternOperand field operator value).map (.matching affix)
  | .present => (truthOperand field operator value).map .present
  | .inList negated => (listOperand field operator value).map (.inList negated)
  | .inQuery negated =>
      let query : Decoded Subquery :=
        match value with
        | .object members => subqueryOfMembers [] (.column "" "") members
        | .array items =>
            subqueryOfItems items.length subqueryShape.members [] (.column "" "") items
        | other => .error (.wrongType other (.record subqueryShape))
      (query.map (.inQuery negated)).mapError fun fault => .invalidValue field (.subquery fault)

/-- Adds the constraints on one field to a map, operator by operator. -/
def addOperators (field : String) (map : ConstraintMap) :
    List (String × Json) → Except SqlError ConstraintMap
  | [] => .ok map
  | (token, value) :: rest =>
      match Operator.ofToken? token with
      | none => .error (.unknownOperator token)
      | some operator => do
          let constraint ← constraintOf field operator value
          addOperators field (map.add field constraint) rest

/-- Adds the constraints on several fields to a map, field by field. -/
def addFields (map : ConstraintMap) : List (String × Json) → Except SqlError ConstraintMap
  | [] => .ok map
  | (field, .object operators) :: rest => do
      let map ← addOperators field map operators
      addFields map rest
  | (_, other) :: _ => .error (.invalidDescriptor (.wrongType other .map))

/-- A constraint map. -/
def constraintMap : Json → Except SqlError ConstraintMap
  | .object fields => do
      checkMaps fields
      addFields .empty fields
  | other => .error (.invalidDescriptor (.wrongType other .map))

/-- An embedded query, from its members. -/
def subqueryOfMembers (seen : List String) (draft : Subquery) :
    List (String × Json) → Decoded Subquery
  | [] => do
      complete subqueryShape .members seen
      pure draft
  | (name, value) :: rest => do
      acceptMember subqueryShape seen name
      let draft ← setSubqueryMember draft name value
        (fun _ => (constraintMap value).mapError SqlError.asDocumentFault)
        (fun _ => joins value)
      subqueryOfMembers (name :: seen) draft rest

/-- An embedded query, from its members in order. -/
def subqueryOfItems (count : Nat) (names seen : List String) (draft : Subquery) :
    List Json → Decoded Subquery
  | [] => do
      complete subqueryShape (.items count) seen
      pure draft
  | value :: rest =>
      match names with
      | [] => do
          complete subqueryShape (.items count) seen
          pure draft
      | name :: names => do
          let draft ← setSubqueryMember draft name value
            (fun _ => (constraintMap value).mapError SqlError.asDocumentFault)
            (fun _ => joins value)
          subqueryOfItems count names (name :: seen) draft rest

/-- A list of joins. -/
def joins : Json → Decoded (List JoinSpec)
  | .array items => joinList items
  | other => .error (.wrongType other .sequence)

/-- The joins of a list, one after another. -/
def joinList : List Json → Decoded (List JoinSpec)
  | [] => .ok []
  | item :: rest => do
      let first ← join item
      let others ← joinList rest
      pure (first :: others)

/-- A join. -/
def join : Json → Decoded JoinSpec
  | .object members => joinOfMembers [] (.bare "" "") members
  | .array items => joinOfItems items.length joinShape.members [] (.bare "" "") items
  | other => .error (.wrongType other (.record joinShape))

/-- A join, from its members. -/
def joinOfMembers (seen : List String) (draft : JoinSpec) :
    List (String × Json) → Decoded JoinSpec
  | [] => do
      complete joinShape .members seen
      pure draft
  | (name, value) :: rest => do
      acceptMember joinShape seen name
      let draft ← setJoinMember draft name value
        (fun _ => (constraintMap value).mapError SqlError.asDocumentFault)
      joinOfMembers (name :: seen) draft rest

/-- A join, from its members in order. -/
def joinOfItems (count : Nat) (names seen : List String) (draft : JoinSpec) :
    List Json → Decoded JoinSpec
  | [] => do
      complete joinShape (.items count) seen
      pure draft
  | value :: rest =>
      match names with
      | [] => do
          complete joinShape (.items count) seen
          pure draft
      | name :: names => do
          let draft ← setJoinMember draft name value
            (fun _ => (constraintMap value).mapError SqlError.asDocumentFault)
          joinOfItems count names (name :: seen) draft rest

end

/-- A constraint map as a part of a document; a refused operator is a fault of the document. -/
def constraints (value : Json) : Decoded ConstraintMap :=
  (constraintMap value).mapError SqlError.asDocumentFault

/-- An embedded query. -/
def subquery : Json → Decoded Subquery
  | .object members => subqueryOfMembers [] (.column "" "") members
  | .array items => subqueryOfItems items.length subqueryShape.members [] (.column "" "") items
  | other => .error (.wrongType other (.record subqueryShape))

/-- The constraint that a field, a token and a value describe. -/
def constraint (field token : String) (value : Json) : Except SqlError Constraint :=
  match Operator.ofToken? token with
  | none => .error (.unknownOperator token)
  | some operator => constraintOf field operator value

end SqlScribe.Document
