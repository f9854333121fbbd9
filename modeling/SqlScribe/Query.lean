import SqlScribe.Config
import SqlScribe.Constraint

/-!
# Queries

A query collects what a SELECT is to return; nothing in it is checked until it
is compiled.
-/

namespace SqlScribe

/-- A column to return. -/
inductive Selection where
  /-- A column of the table, or of a joined one as `alias.field`. -/
  | column (path : String)
  /-- A column of a joined table, under a name of its own if one is given. -/
  | joined (aliasName field : String) (output : Option String)
deriving DecidableEq, Repr, Inhabited

namespace Selection

/-- The path of the selected column. -/
def path : Selection → String
  | .column path => path
  | .joined aliasName field _ => aliasName ++ "." ++ field

/-- The name of the selected column in the result. -/
def output : Selection → String
  | .column path => String.ofList (path.toList.map fun c => if c = '.' then '_' else c)
  | .joined aliasName field output => output.getD (aliasName ++ "_" ++ field)

/-- Gives a joined column a name in the result; a plain column keeps its own. -/
def renamed (output : String) : Selection → Selection
  | .column path => .column path
  | .joined aliasName field _ => .joined aliasName field (some output)

end Selection

/-- A field to sort by. -/
structure SortKey where
  field : String
  direction : SortDirection
deriving DecidableEq, Repr, Inhabited

/-- A query over one table. -/
structure Query where
  table : String
  selection : List Selection := []
  joins : List JoinSpec := []
  conditions : ConstraintMap := .empty
  sort : List SortKey := []
  skip : Option Nat := none
  limit : Option Nat := none
  /-- Whether the table gets a generated alias, as it does inside another query. -/
  embedded : Bool := false

namespace Query

instance : Inhabited Query := ⟨⟨"", [], [], .empty, [], none, none, false⟩⟩

/-- Adds columns to return; without any, all columns are returned. -/
def select (query : Query) (columns : List Selection) : Query :=
  { query with selection := query.selection ++ columns }

def join (query : Query) (join : JoinSpec) : Query :=
  { query with joins := query.joins ++ [join] }

/-- Adds a constraint on a field. -/
def filter (query : Query) (field : String) (constraint : Constraint) : Query :=
  { query with conditions := query.conditions.add field constraint }

/-- Adds all constraints of a map. -/
def constrain (query : Query) (conditions : ConstraintMap) : Query :=
  { query with conditions := query.conditions.merge conditions }

def sortBy (query : Query) (key : SortKey) : Query :=
  { query with sort := query.sort ++ [key] }

end Query

end SqlScribe
