import SqlScribe.AliasScope
import SqlScribe.Event
import SqlScribe.Query
import SqlScribe.Query.Names
import SqlScribe.Statement.Fragment

/-!
# From queries to SELECT statements

Compiling a query checks its names, resolves every column and turns its
constraints into conditions.  Queries inside constraints are compiled on the
way, one level deeper, with the names around them in scope.

Two things pass through the whole compilation: the supply of aliases, so that
generated names differ across the statement, and the events reported so far,
which stay reported when the compilation fails later on.
-/

namespace SqlScribe

/-- What passes through a compilation. -/
structure CompileState where
  scope : AliasScope
  events : List Event
deriving Repr, Inhabited

/-- A compilation: it may fail, and keeps its state also if it does. -/
abbrev Compile (α : Type) := ExceptT SqlError (StateM CompileState) α

namespace Compile

/-- Marks a name as used in the statement. -/
def reserve (name : String) : Compile Unit :=
  modify fun state => { state with scope := state.scope.reserve name }

/-- Takes a generated alias for a query at some depth. -/
def allocate (depth : Nat) : Compile String := do
  let state ← get
  let (aliasName, scope) := state.scope.allocate depth
  set { state with scope }
  pure aliasName

def report (event : Event) : Compile Unit :=
  modify fun state => { state with events := state.events ++ [event] }

end Compile

/-! ## The parts of a query without constraints -/

/-- A query without its constraints: its tables, what it returns, and which part of the rows. -/
structure QueryFrame where
  table : String
  aliases : List String
  embedded : Bool
  selection : List Selection
  sort : List SortKey
  skip : Option Nat
  limit : Option Nat

/-- Checks aliases one after another: each is a name that was not used before. -/
def checkAliases (used : List String) : List String → Except SqlError Unit
  | [] => .ok ()
  | aliasName :: rest => do
      let _ ← checkName aliasName
      if used.contains aliasName then throw (.duplicateAlias aliasName)
      checkAliases (aliasName :: used) rest

/-- The items of a SELECT list; inside another query they have no output names. -/
def selectItems (names : Names) (embedded : Bool) (used : List String) :
    List Selection → Except SqlError (List SelectItem)
  | [] => .ok []
  | selection :: rest => do
      let column ← names.resolve selection.path
      if embedded then
        pure (⟨column, none⟩ :: (← selectItems names embedded used rest))
      else
        let output ← checkName selection.output
        if used.contains output then throw (.ambiguousSelection output)
        pure (⟨column, some output⟩ :: (← selectItems names embedded (output :: used) rest))

/-- What a query returns. -/
def QueryFrame.projection (frame : QueryFrame) (names : Names) : Except SqlError Projection :=
  if frame.selection.isEmpty then .ok .all
  else (selectItems names frame.embedded [] frame.selection).map .columns

/-- The order of a query's rows. -/
def QueryFrame.order (frame : QueryFrame) (names : Names) : Except SqlError (List OrderKey) :=
  frame.sort.mapM fun key => do
    pure ⟨← names.resolve key.field, key.direction⟩

/-- Checks the names that a query introduces and takes an alias for its table if it is embedded. -/
def QueryFrame.source
    (config : Config) (frame : QueryFrame) (depth : Nat) : Compile TableRef := do
  if config.maxSubqueryDepth < depth then throw (.subqueryTooDeep config.maxSubqueryDepth)
  let _ ← checkName frame.table
  checkAliases (if frame.embedded then [] else [frame.table]) frame.aliases
  Compile.reserve frame.table
  frame.aliases.forM Compile.reserve
  if frame.embedded then
    pure ⟨frame.table, some (← Compile.allocate depth)⟩
  else pure ⟨frame.table, none⟩

/--
Puts a SELECT together.  The joins and the condition are compiled in their
turn, once the names of the query are known.
-/
def QueryFrame.assemble
    (config : Config)
    (frame : QueryFrame)
    (depth : Nat)
    (enclosing : List String)
    (compileJoins : Names → Compile (List Join))
    (compileConditions : Names → Compile (List Expr)) :
    Compile Select := do
  let source ← frame.source config depth
  let names : Names := ⟨source.reference, frame.aliases, enclosing⟩
  let joins ← compileJoins names
  let projection ← frame.projection names
  let conditions ← compileConditions names
  let order ← frame.order names
  match frame.skip, frame.limit with
  | some skip, none => Compile.report (.skipWithoutLimit frame.table skip)
  | _, _ => pure ()
  let condition := if conditions.isEmpty then none else some (Expr.conjunction conditions)
  pure ⟨projection, source, joins, condition, order, ⟨frame.skip, frame.limit⟩⟩

/-! ## Joins over a column -/

/--
A join over a column, which holds the key of the joined row.  The column belongs
to the query's own table or to an earlier join.
-/
def joinVia
    (config : Config)
    (names : Names)
    (earlier : List String)
    (joined : TableRef)
    (via : String)
    (targetKey : Option String) :
    Except SqlError Join := do
  let path ← ColumnPath.parse via
  let qualifier := path.qualifier.getD names.primary
  if path.qualifier.isSome ∧ qualifier ≠ names.primary ∧ ¬ earlier.contains qualifier then
    throw (.unknownAlias qualifier)
  let key ← checkName (targetKey.getD config.identifierKey)
  let condition : Expr :=
    .compare (.column ⟨some qualifier, path.name⟩) .equal (.column ⟨some joined.reference, key⟩)
  pure ⟨joined, condition⟩

/--
The alias that an embedded query reads its column through without declaring a
join for it; the join it needs is on the table of that name.
-/
def undeclaredAlias?
    (select : String) (declared : List String) : Except SqlError (Option String) := do
  let path ← ColumnPath.parse select
  pure (path.qualifier.filter fun aliasName => !declared.contains aliasName)

/-- The join for an alias that an embedded query does not declare. -/
def impliedJoin
    (config : Config) (names : Names) (earlier : List String) (aliasName : String) :
    Except SqlError Join := do
  let table ← checkName aliasName
  joinVia config names earlier ⟨table, some aliasName⟩ aliasName (some config.identifierKey)

/-! ## Constraints -/

/-- The column, or the columns put together, that a pattern is matched with. -/
def patternSubject
    (config : Config) (names : Names) (owner field : String) (affix : Affix) :
    Except SqlError Expr :=
  let parts := Text.splitAt config.hasDelimiter field.toList
  if affix = .anywhere ∧ config.hasDelimiter ∈ field.toList then
    (parts.mapM fun part => names.resolveIn owner (String.ofList part)).map .concat
  else (names.resolveIn owner field).map .column

/-- The pattern of LIKE that finds a text at its place. -/
def Affix.pattern (text : String) : Affix → String
  | .start => text ++ "%"
  | .ending => "%" ++ text
  | .anywhere => "%" ++ text ++ "%"

/-- The conditions on one field as parts of a conjunction: several form a group. -/
def fieldParts : List Expr → List Expr
  | [] => []
  | [only] => [only]
  | parts => [.group (.and parts)]

mutual

/-- The condition that a constraint on a field stands for. -/
def constraintExpr
    (config : Config) (depth : Nat) (names : Names) (owner field : String) :
    Constraint → Compile Expr
  | .compare comparison value => do
      let column ← names.resolveIn owner field
      pure (.compare (.column column) comparison (.literal value))
  | .matching affix text => do
      let subject ← patternSubject config names owner field affix
      pure (.like subject (affix.pattern text))
  | .present expected => do
      let column ← names.resolveIn owner field
      pure (.nullCheck (.column column) (!expected))
  | .inList negated values => do
      let column ← names.resolveIn owner field
      pure (Expr.inListOrTruth (.column column) values negated)
  | .inQuery negated query => do
      let column ← names.resolveIn owner field
      let select ← subquerySelect config depth names query
      pure (.inSelect (.column column) select negated)

/-- The conditions on one field. -/
def constraintExprs
    (config : Config) (depth : Nat) (names : Names) (owner field : String) :
    List Constraint → Compile (List Expr)
  | [] => pure []
  | constraint :: rest => do
      let first ← constraintExpr config depth names owner field constraint
      let others ← constraintExprs config depth names owner field rest
      pure (first :: others)

/-- The parts of the condition that one field contributes. -/
def fieldExprs
    (config : Config) (depth : Nat) (names : Names) (owner : String) :
    FieldConstraints → Compile (List Expr)
  | ⟨field, constraints⟩ => do
      let parts ← constraintExprs config depth names owner field constraints
      pure (fieldParts parts)

/-- The parts of the condition that some fields contribute, field by field. -/
def conditionExprs
    (config : Config) (depth : Nat) (names : Names) (owner : String) :
    List FieldConstraints → Compile (List Expr)
  | [] => pure []
  | entry :: rest => do
      let first ← fieldExprs config depth names owner entry
      let others ← conditionExprs config depth names owner rest
      pure (first ++ others)

/-- The SELECT of an embedded query, one level deeper than the query around it. -/
def subquerySelect
    (config : Config) (depth : Nat) (names : Names) : Subquery → Compile Select
  | ⟨table, select, ⟨entries⟩, joins, skip, limit⟩ => do
      let declared := joins.map JoinSpec.aliasName
      let implied ← undeclaredAlias? select declared
      let frame : QueryFrame :=
        ⟨table, declared ++ implied.toList, true, [.column select], [], skip, limit⟩
      frame.assemble config (depth + 1) names.all
        (fun inner => do
          let joined ← joinNodes config (depth + 1) inner [] joins
          match implied with
          | none => pure joined
          | some aliasName => pure (joined ++ [← impliedJoin config inner declared aliasName]))
        (fun inner => conditionExprs config (depth + 1) inner inner.primary entries)

/-- The joins of a query in order; each sees the aliases before it. -/
def joinNodes
    (config : Config) (depth : Nat) (names : Names) (earlier : List String) :
    List JoinSpec → Compile (List Join)
  | [] => pure []
  | join :: rest => do
      let first ← joinNode config depth names earlier join
      let others ← joinNodes config depth names (earlier ++ [join.aliasName]) rest
      pure (first :: others)

/--
A join.  It is either over a column or over constraints, in which only the
earlier aliases and its own one are in scope; no constraints at all count as
none given.
-/
def joinNode
    (config : Config) (depth : Nat) (names : Names) (earlier : List String) :
    JoinSpec → Compile Join
  | ⟨table, aliasName, via, none, targetKey⟩ => do
      let table ← checkName table
      match via with
      | some via => joinVia config names earlier ⟨table, some aliasName⟩ via targetKey
      | none => throw (.missingJoinKey aliasName)
  | ⟨table, aliasName, via, some ⟨entries⟩, targetKey⟩ => do
      let table ← checkName table
      match via, entries.isEmpty with
      | some via, true => joinVia config names earlier ⟨table, some aliasName⟩ via targetKey
      | none, false =>
          if targetKey.isSome then throw (.invalidValue aliasName .targetKeyWithoutVia)
          let visible : Names := { names with aliases := earlier ++ [aliasName] }
          let parts ← conditionExprs config depth visible aliasName entries
          let condition := if parts.isEmpty then .truth else Expr.conjunction parts
          pure ⟨⟨table, some aliasName⟩, .group condition⟩
      | _, _ => throw (.missingJoinKey aliasName)

end

/-! ## Statements -/

namespace Query

def frame (query : Query) : QueryFrame :=
  ⟨query.table, query.joins.map JoinSpec.aliasName, query.embedded, query.selection, query.sort,
    query.skip, query.limit⟩

/-- Compiles a query that stands in no other one. -/
def compile (config : Config) (query : Query) : Compile Select :=
  query.frame.assemble config 0 []
    (fun names => joinNodes config 0 names [] query.joins)
    (fun names => conditionExprs config 0 names names.primary query.conditions.entries)

/-- The SELECT of a query, and the events reported on the way. -/
def statement (config : Config) (query : Query) : Except SqlError Select × List Event :=
  let (result, state) := query.compile config |>.run.run ⟨.empty, []⟩
  (result, state.events)

/-- The name of the number of rows in the result of a count. -/
def countOutput : String := "count"

/--
Makes a SELECT serve an operation: `first` returns one row, and `count` the
number of rows, whatever their order and whichever part of them was asked for.
-/
def adapted (select : Select) : ReadOperation → Select
  | .find => select
  | .first => { select with limit := { select.limit with count := some 1 } }
  | .count =>
      { select with projection := .count countOutput, order := [], limit := ⟨none, none⟩ }

/-- The SQL text of an operation on a query, and the events reported on the way. -/
def toSql (config : Config) (query : Query) (operation : ReadOperation) :
    Except SqlError String × List Event :=
  let (result, events) := query.statement config
  let sql := do
    let select ← result
    (Statement.select (adapted select operation)).toSql
  match sql with
  | .ok text => (sql, events ++ [.compiled (.read operation) query.table text])
  | .error _ => (sql, events)

end Query

end SqlScribe
