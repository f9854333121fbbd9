import SqlScribe.Proofs.Grammar.Combinator
import SqlScribe.Proofs.Lexis.Select

/-!
# The grammar of SELECT statements

Comparisons, LIKE, IS NULL and IN bind tighter than AND, and parentheses group.
The value of a number is left to a function of its text.
-/

namespace SqlScribe.Grammar

open Lexis

/-! ## Names and lists of columns -/

def column : Parser ColumnRef := do
  let first ← name
  branch (.symbol ".")
    (do
      let column ← name
      pure ⟨some first, column⟩)
    (pure ⟨none, first⟩)

def table : Parser TableRef := do
  let table ← name
  branch (.word "AS")
    (do
      let aliasName ← name
      pure ⟨table, some aliasName⟩)
    (pure ⟨table, none⟩)

def item : Parser SelectItem := do
  let column ← column
  branch (.word "AS")
    (do
      let output ← name
      pure ⟨column, some output⟩)
    (pure ⟨column, none⟩)

def projection (bound : Nat) : Parser Projection :=
  branch (.symbol "*") (pure .all)
    (branch (.word "COUNT")
      (do
        expect (.symbol "(")
        expect (.symbol "*")
        expect (.symbol ")")
        expect (.word "AS")
        let output ← name
        pure (.count output))
      (do
        let items ← separated item bound
        pure (.columns items)))

def direction : Parser SortDirection :=
  branch (.word "ASC") (pure .ascending)
    (do
      expect (.word "DESC")
      pure .descending)

def orderKey : Parser OrderKey := do
  let column ← column
  let direction ← direction
  pure ⟨column, direction⟩

def order (bound : Nat) : Parser (List OrderKey) :=
  branch (.word "ORDER")
    (do
      expect (.word "BY")
      separated orderKey bound)
    (pure [])

/-- The rows to pass over stand before the number of rows to return. -/
def limit : Parser Limit :=
  branch (.word "LIMIT")
    (do
      let first ← natural
      branch (.symbol ",")
        (do
          let count ← natural
          pure ⟨some first, some count⟩)
        (pure ⟨none, some first⟩))
    (pure ⟨none, none⟩)

/-! ## Conditions and queries -/

section Conditions

variable (numberOf : List Char → JsonNumber)

def literal : Parser Json := fun tokens =>
  match tokens with
  | .word "NULL" :: rest => some (.null, rest)
  | .word "true" :: rest => some (.bool true, rest)
  | .word "false" :: rest => some (.bool false, rest)
  | .string value :: rest => some (.string value, rest)
  | .number text :: rest => some (.number (numberOf text.toList), rest)
  | .symbol "-" :: .number text :: rest => some (.number (numberOf ('-' :: text.toList)), rest)
  | _ => none

/-- The right-hand side of a comparison. -/
def operand : Parser Expr := fun tokens =>
  match literal numberOf tokens with
  | some (value, rest) => some (.literal value, rest)
  | none => (do let column ← column; pure (Expr.column column) : Parser Expr) tokens

/-- The left-hand side of a predicate. -/
def subject (bound : Nat) : Parser Expr :=
  branch (.word "CONCAT")
    (do
      expect (.symbol "(")
      let columns ← separated column bound
      expect (.symbol ")")
      pure (.concat columns))
    (do
      let column ← column
      pure (.column column))

def comparison : Parser Comparison := fun tokens =>
  match tokens with
  | .symbol "=" :: rest => some (.equal, rest)
  | .symbol "!=" :: rest => some (.notEqual, rest)
  | .symbol ">" :: rest => some (.greater, rest)
  | .symbol ">=" :: rest => some (.greaterOrEqual, rest)
  | .symbol "<" :: rest => some (.less, rest)
  | .symbol "<=" :: rest => some (.lessOrEqual, rest)
  | _ => none

/-- What stands after IN. -/
def membership (body : Parser Select) (bound : Nat) (subject : Expr) (negated : Bool) :
    Parser Expr := do
  expect (.symbol "(")
  branch (.word "SELECT")
    (do
      let query ← body
      expect (.symbol ")")
      pure (.inSelect subject query negated))
    (do
      let values ← separated (literal numberOf) bound
      expect (.symbol ")")
      pure (.inList subject values negated))

/-- What a predicate says about its subject. -/
def relation (body : Parser Select) (bound : Nat) (subject : Expr) : Parser Expr :=
  branch (.word "LIKE")
    (do
      let pattern ← string
      pure (.like subject pattern))
    (branch (.word "IS")
      (branch (.word "NOT")
        (do
          expect (.word "NULL")
          pure (.nullCheck subject false))
        (do
          expect (.word "NULL")
          pure (.nullCheck subject true)))
      (branch (.word "IN") (membership numberOf body bound subject false)
        (branch (.word "NOT")
          (do
            expect (.word "IN")
            membership numberOf body bound subject true)
          (do
            let comparison ← comparison
            let right ← operand numberOf
            pure (.compare subject comparison right)))))

mutual

/-- One part of a conjunction. -/
def predicate : Nat → Parser Expr
  | 0 => failure
  | fuel + 1 =>
      branch (.symbol "(")
        (do
          let parts ← conjuncts fuel
          expect (.symbol ")")
          pure (.group (.conjunction parts)))
        (branch (.number "1")
          (do
            expect (.symbol "=")
            expect (.number "1")
            pure .truth)
          (do
            let subject ← subject fuel
            relation numberOf (body fuel) fuel subject))

def conjuncts : Nat → Parser (List Expr)
  | 0 => failure
  | fuel + 1 => do
      let first ← predicate fuel
      branch (.word "AND")
        (do
          let others ← conjuncts fuel
          pure (first :: others))
        (pure [first])

def joins : Nat → Parser (List Join)
  | 0 => failure
  | fuel + 1 =>
      branch (.word "LEFT")
        (do
          expect (.word "OUTER")
          expect (.word "JOIN")
          let table ← table
          expect (.word "ON")
          let parts ← conjuncts fuel
          let others ← joins fuel
          pure (⟨table, .conjunction parts⟩ :: others))
        (pure [])

/-- A SELECT without its first word. -/
def body : Nat → Parser Select
  | 0 => failure
  | fuel + 1 => do
      let projection ← projection fuel
      expect (.word "FROM")
      let source ← table
      let joins ← joins fuel
      let condition ←
        branch (.word "WHERE")
          (do
            let parts ← conjuncts fuel
            pure (some (.conjunction parts)))
          (pure none)
      let order ← order fuel
      let limit ← limit
      pure ⟨projection, source, joins, condition, order, limit⟩

end

/-- The SELECT with this text; every level of nesting and every AND takes up some of its tokens. -/
def parse (sql : String) : Option Select :=
  match lex sql with
  | .ok (.word "SELECT" :: tokens) =>
      match body numberOf (2 * tokens.length + 1) tokens with
      | some (select, []) => some select
      | _ => none
  | _ => none

end Conditions

end SqlScribe.Grammar
