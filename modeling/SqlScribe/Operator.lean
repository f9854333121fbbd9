/-!
# Constraint operators

The closed set of operators that a constraint on a field can use, each with the
token that names it in a document.  `ofToken?_token` says that a token names
its operator and no other.
-/

namespace SqlScribe

/-- The order comparisons of SQL. -/
inductive Comparison where
  | equal
  | notEqual
  | greater
  | greaterOrEqual
  | less
  | lessOrEqual
deriving DecidableEq, Repr, Inhabited

namespace Comparison

def all : List Comparison := [.equal, .notEqual, .greater, .greaterOrEqual, .less, .lessOrEqual]

/-- The SQL spelling of a comparison. -/
def symbol : Comparison → String
  | .equal => "="
  | .notEqual => "!="
  | .greater => ">"
  | .greaterOrEqual => ">="
  | .less => "<"
  | .lessOrEqual => "<="

/-- The comparison with this SQL spelling, by which a tree from outside the library names it. -/
def ofSymbol? (symbol : String) : Option Comparison :=
  all.find? fun comparison => comparison.symbol == symbol

/-- The token of a comparison in a document. -/
def token : Comparison → String
  | .equal => "eq"
  | .notEqual => "neq"
  | .greater => "gt"
  | .greaterOrEqual => "gte"
  | .less => "lt"
  | .lessOrEqual => "lte"

end Comparison

/-- Where a pattern has to stand in the text it is matched with. -/
inductive Affix where
  | start
  | ending
  | anywhere
deriving DecidableEq, Repr, Inhabited

/-- An operator of a constraint. -/
inductive Operator where
  | compare (comparison : Comparison)
  | matching (affix : Affix)
  | present
  | inList (negated : Bool)
  | inQuery (negated : Bool)
deriving DecidableEq, Repr, Inhabited

namespace Operator

/-- All fourteen operators. -/
def all : List Operator :=
  Comparison.all.map .compare ++
    [.matching .start, .matching .ending, .matching .anywhere, .present,
      .inList false, .inList true, .inQuery false, .inQuery true]

/-- The token that names an operator in a document. -/
def token : Operator → String
  | .compare comparison => comparison.token
  | .matching .start => "str"
  | .matching .ending => "end"
  | .matching .anywhere => "has"
  | .present => "ex"
  | .inList false => "in"
  | .inList true => "nin"
  | .inQuery false => "fi"
  | .inQuery true => "nfi"

/-- The operator named by a token. -/
def ofToken? (token : String) : Option Operator :=
  all.find? fun operator => operator.token == token

theorem ofToken?_token (operator : Operator) : ofToken? operator.token = some operator := by
  cases operator with
  | compare comparison => cases comparison <;> decide
  | matching affix => cases affix <;> decide
  | present => decide
  | inList negated => cases negated <;> decide
  | inQuery negated => cases negated <;> decide

theorem token_eq_of_ofToken? {token : String} {operator : Operator}
    (found : ofToken? token = some operator) : operator.token = token := by
  have test := List.find?_some found
  simpa using test

end Operator

end SqlScribe
