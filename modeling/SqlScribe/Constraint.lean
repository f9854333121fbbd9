import SqlScribe.Json
import SqlScribe.Operator
import SqlScribe.Statement

/-!
# Constraints, embedded queries and joins

A constraint map gives each field the conditions that its rows have to meet.  A
condition can ask for membership in another query, that query has constraints
and joins of its own, and a join can have constraints too: the four types are
defined together.

Maps are built by adding one constraint at a time.  A field keeps the position
of its first constraint, and its constraints keep their order.
-/

namespace SqlScribe

mutual

/-- One condition on a field. -/
inductive Constraint where
  | compare (comparison : Comparison) (value : Json)
  | matching (affix : Affix) (text : String)
  | present (expected : Bool)
  | inList (negated : Bool) (values : List Json)
  | inQuery (negated : Bool) (query : Subquery)

/-- A field with the conditions on it. -/
structure FieldConstraints where
  field : String
  constraints : List Constraint

/-- The conditions on some fields, all of which have to hold. -/
structure ConstraintMap where
  entries : List FieldConstraints

/-- A query for the values of one column of another table. -/
structure Subquery where
  table : String
  select : String
  conditions : ConstraintMap
  joins : List JoinSpec
  skip : Option Nat
  limit : Option Nat

/--
A join on a related table under an alias: either over a column that holds the
key of the related row, or over constraints on the joined table.
-/
structure JoinSpec where
  table : String
  aliasName : String
  via : Option String
  conditions : Option ConstraintMap
  targetKey : Option String

end

/-- The operator of a constraint. -/
def Constraint.operator : Constraint → Operator
  | .compare comparison _ => .compare comparison
  | .matching affix _ => .matching affix
  | .present _ => .present
  | .inList negated _ => .inList negated
  | .inQuery negated _ => .inQuery negated

namespace ConstraintMap

def empty : ConstraintMap := ⟨[]⟩

instance : Inhabited ConstraintMap := ⟨empty⟩

/-- How many fields have constraints. -/
def size (map : ConstraintMap) : Nat := map.entries.length

def isEmpty (map : ConstraintMap) : Bool := map.entries.isEmpty

/-- Adds a constraint to the entry of its field, or a new entry at the end. -/
def addTo (field : String) (constraint : Constraint) :
    List FieldConstraints → List FieldConstraints
  | [] => [⟨field, [constraint]⟩]
  | entry :: rest =>
      if entry.field = field then ⟨field, entry.constraints ++ [constraint]⟩ :: rest
      else entry :: addTo field constraint rest

/-- Adds a constraint on a field; the field keeps its first position. -/
def add (map : ConstraintMap) (field : String) (constraint : Constraint) : ConstraintMap :=
  ⟨addTo field constraint map.entries⟩

/-- Adds the constraints of another map, field by field. -/
def merge (map other : ConstraintMap) : ConstraintMap :=
  other.entries.foldl
    (fun merged entry =>
      entry.constraints.foldl (fun grown constraint => grown.add entry.field constraint) merged)
    map

end ConstraintMap

/-- A query for one column of a table, without any conditions. -/
def Subquery.column (table select : String) : Subquery :=
  ⟨table, select, .empty, [], none, none⟩

/-- A join that has neither a column nor constraints yet. -/
def JoinSpec.bare (table aliasName : String) : JoinSpec := ⟨table, aliasName, none, none, none⟩

instance : Inhabited Constraint := ⟨.present true⟩

end SqlScribe
