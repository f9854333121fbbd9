import SqlScribe.Proofs.Lexis.Statement
import SqlScribe.Proofs.Named.Changes

/-!
# No value changes a statement

Whatever a program asks for, the text that it gets has the tokens of the
statement that was compiled, and these are keywords and punctuation around the
names, strings and numbers of the statement.  A value can therefore neither end
its own literal nor add a token.
-/

namespace SqlScribe

open Checked Lexis

/-! ## Keywords and punctuation -/

namespace Lexis

/-- The words of statements. -/
def keywords : List String :=
  ["SELECT", "COUNT", "AS", "FROM", "LEFT", "OUTER", "JOIN", "ON", "WHERE", "CONCAT", "LIKE", "IS",
    "NOT", "NULL", "IN", "AND", "ORDER", "BY", "ASC", "DESC", "LIMIT", "INSERT", "INTO", "VALUES",
    "DUPLICATE", "KEY", "UPDATE", "SET", "DELETE", "CREATE", "TABLE", "IF", "EXISTS", "UNIQUE",
    "AUTO_INCREMENT", "PRIMARY", "ALTER", "ADD", "MODIFY", "DROP", "COLUMN", "CHANGE", "VARCHAR",
    "TEXT", "INT", "FLOAT", "DATETIME", "true", "false"]

def punctuation : List String :=
  ["(", ")", ",", ".", "*", "=", "!=", ">", ">=", "<", "<=", "+", "-"]

/-- The token is a keyword or a punctuation mark, or it holds a name or a value. -/
def Token.isExpected : Token → Bool
  | .word text => keywords.contains text
  | .symbol text => punctuation.contains text
  | .name _ | .string _ | .number _ => true

/-- All tokens are expected ones. -/
def Expected (tokens : List Token) : Prop := ∀ token ∈ tokens, token.isExpected

instance (tokens : List Token) : Decidable (Expected tokens) :=
  inferInstanceAs (Decidable (∀ token ∈ tokens, token.isExpected))

@[simp]
theorem expected_nil : Expected [] := by simp [Expected]

@[simp]
theorem expected_cons {token : Token} {tokens : List Token} :
    Expected (token :: tokens) ↔ token.isExpected ∧ Expected tokens := by
  simp [Expected]

@[simp]
theorem expected_append {first second : List Token} :
    Expected (first ++ second) ↔ Expected first ∧ Expected second := by
  simp [Expected, or_imp, forall_and]

theorem expected_separated {α : Type} {read : α → List Token} {items : List α}
    (each : ∀ item ∈ items, Expected (read item)) :
    Expected (separatedTokens (items.map read)) := by
  have comma : (Token.symbol ",").isExpected := rfl
  induction items with
  | nil => exact expected_nil
  | cons item rest step =>
      cases rest with
      | nil => exact each item List.mem_cons_self
      | cons next others =>
          have tail := step fun other member => each other (List.mem_cons_of_mem _ member)
          exact expected_append.2 ⟨each item List.mem_cons_self, expected_cons.2 ⟨comma, tail⟩⟩

theorem expected_number (text : List Char) : Expected (numberTokens text) := by
  unfold numberTokens
  split <;> simp [Token.isExpected, punctuation]

mutual

theorem expected_value : ∀ value : Json, Expected (valueTokens value)
  | .null | .bool true | .bool false => by simp [valueTokens, Token.isExpected, keywords]
  | .number value => expected_number value.text
  | .string _ | .object _ => by simp [valueTokens, Token.isExpected]
  | .array items => expected_items items

theorem expected_items : ∀ items : List Json, Expected (itemTokens items)
  | [] => expected_nil
  | [value] => expected_value value
  | value :: next :: rest => by
      have own := expected_value value
      have others := expected_items (next :: rest)
      simp [itemTokens, own, others, Token.isExpected, punctuation]

end

theorem expected_sqlType (spec : ColumnSpec) : Expected (typeTokens spec.sqlType) := by
  have word : (Token.word spec.content.typeName).isExpected := by
    cases spec.content <;> rfl
  rw [typeTokens_sqlType, expected_cons]
  refine ⟨word, ?_⟩
  rcases spec.size.or spec.content.size? with _ | ⟨digits⟩ | ⟨digits, places⟩
  · exact expected_nil
  · simp [sizeTokens, Token.isExpected, punctuation]
  · simp [sizeTokens, Token.isExpected, punctuation]

end Lexis

/-! ## Queries -/

theorem TableRef.expected (table : TableRef) : Expected table.tokens := by
  rcases table with ⟨_, _ | _⟩ <;> simp [TableRef.tokens, Token.isExpected, keywords]

theorem ColumnRef.expected (column : ColumnRef) : Expected column.tokens := by
  rcases column with ⟨_ | _, _⟩ <;> simp [ColumnRef.tokens, Token.isExpected, punctuation]

theorem SelectItem.expected (item : SelectItem) : Expected item.tokens := by
  rcases item with ⟨column, _ | _⟩
  · exact column.expected
  · simp [SelectItem.tokens, column.expected, Token.isExpected, keywords]

theorem Projection.expected (projection : Projection) : Expected projection.tokens := by
  cases projection with
  | all => simp [Projection.tokens, Token.isExpected, punctuation]
  | columns items => exact expected_separated fun item _ => item.expected
  | count output => simp [Projection.tokens, Token.isExpected, keywords, punctuation]

theorem OrderKey.expected_clause (keys : List OrderKey) : Expected (clauseTokens keys) := by
  cases keys with
  | nil => exact expected_nil
  | cons key rest =>
      have listed : Expected (separatedTokens ((key :: rest).map OrderKey.tokens)) := by
        refine expected_separated fun other _ => ?_
        have direction : other.direction.token.isExpected := by
          cases other.direction <;> rfl
        simp [OrderKey.tokens, other.column.expected, direction]
      exact expected_cons.2 ⟨rfl, expected_cons.2 ⟨rfl, listed⟩⟩

theorem Limit.expected (limit : Limit) : Expected limit.tokens := by
  rcases limit with ⟨_ | _, _ | _⟩ <;>
    simp [Limit.tokens, Token.isExpected, keywords, punctuation]

theorem expected_truth : Expected truthTokens := by
  simp [truthTokens, Token.isExpected, punctuation]

theorem expected_nullCheck (isNull : Bool) : Expected (nullCheckTokens isNull) := by
  cases isNull <;> simp [nullCheckTokens, Token.isExpected, keywords]

theorem expected_membership (negated : Bool) : Expected (membershipTokens negated) := by
  cases negated <;> simp [membershipTokens, Token.isExpected, keywords, punctuation]

theorem expected_closing : Expected [.symbol ")"] := by
  simp [Token.isExpected, punctuation]

mutual

theorem Expr.expected : ∀ expr : Expr, Expected expr.tokens
  | .column column => column.expected
  | .concat columns => by
      have listed := expected_separated fun column (_ : column ∈ columns) => column.expected
      simp [Expr.tokens, listed, Token.isExpected, keywords, punctuation]
  | .literal value => expected_value value
  | .compare left comparison right => by
      have symbol : (comparisonToken comparison).isExpected := by
        cases comparison <;> rfl
      simp [Expr.tokens, left.expected, right.expected, symbol]
  | .like subject _ => by
      simp [Expr.tokens, subject.expected, Token.isExpected, keywords]
  | .nullCheck subject isNull =>
      expected_append.2 ⟨subject.expected, expected_nullCheck isNull⟩
  | .inList subject values negated => by
      have listed := expected_separated fun value (_ : value ∈ values) => expected_value value
      unfold Expr.tokens
      split
      · exact expected_truth
      · simp only [expected_append]
        exact ⟨⟨subject.expected, expected_membership negated, listed⟩, expected_closing⟩
  | .inSelect subject query negated => by
      simp only [Expr.tokens, expected_append]
      exact ⟨⟨subject.expected, expected_membership negated, query.expected⟩, expected_closing⟩
  | .and [] => expected_truth
  | .and (part :: rest) => expected_append.2 ⟨part.expected, Expr.expected_further rest⟩
  | .group inner => by
      simp [Expr.tokens, inner.expected, Token.isExpected, punctuation]
  | .truth => expected_truth

theorem Expr.expected_further : ∀ parts : List Expr, Expected (Expr.furtherTokens parts)
  | [] => expected_nil
  | part :: rest => by
      have others := Expr.expected_further rest
      simp [Expr.furtherTokens, part.expected, others, Token.isExpected, keywords]

theorem Join.expected_clauses : ∀ joins : List Join, Expected (Join.clauseTokens joins)
  | [] => expected_nil
  | ⟨table, condition⟩ :: rest => by
      have others := Join.expected_clauses rest
      simp [Join.clauseTokens, Join.tokens, table.expected, condition.expected, others,
        Token.isExpected, keywords]

theorem Select.expected : ∀ select : Select, Expected select.tokens
  | ⟨projection, source, joins, none, order, limit⟩ => by
      have joined := Join.expected_clauses joins
      have ordered := OrderKey.expected_clause order
      simp [Select.tokens, projection.expected, source.expected, joined, ordered, limit.expected,
        Token.isExpected, keywords]
  | ⟨projection, source, joins, some condition, order, limit⟩ => by
      have joined := Join.expected_clauses joins
      have ordered := OrderKey.expected_clause order
      simp [Select.tokens, projection.expected, source.expected, joined, condition.expected,
        ordered, limit.expected, Token.isExpected, keywords]

end

/-! ## Other statements -/

theorem Assignment.expected (assignment : Assignment) : Expected assignment.tokens := by
  rcases assignment with ⟨column, value⟩
  cases value with
  | literal value =>
      simp [Assignment.tokens, expected_value, Token.isExpected, punctuation]
  | increment delta =>
      simp [Assignment.tokens, expected_number, Token.isExpected, punctuation]
  | inserted | unchanged =>
      simp [Assignment.tokens, Token.isExpected, keywords, punctuation]

theorem Assignment.expected_onDuplicate (assignments : List Assignment) :
    Expected (onDuplicateTokens assignments) := by
  cases assignments with
  | nil => exact expected_nil
  | cons first rest =>
      have listed := expected_separated fun assignment (_ : assignment ∈ first :: rest) =>
        assignment.expected
      rw [onDuplicateTokens]
      · simp only [expected_cons, listed, Token.isExpected]
        decide
      · simp

theorem expected_names (names : List String) : Expected (nameTokens names) :=
  expected_separated fun name _ => by simp [Token.isExpected]

theorem Insert.expected (insert : Insert) : Expected insert.tokens := by
  have values := expected_separated fun value (_ : value ∈ insert.values) => expected_value value
  simp [Insert.tokens, expected_names, values, Assignment.expected_onDuplicate, Token.isExpected,
    keywords, punctuation]

theorem Update.expected (update : Update) : Expected update.tokens := by
  have assigned := expected_separated fun assignment (_ : assignment ∈ update.assignments) =>
    assignment.expected
  simp [Update.tokens, assigned, Expr.expected, Token.isExpected, keywords]

theorem Delete.expected (delete : Delete) : Expected delete.tokens := by
  simp [Delete.tokens, Expr.expected, Token.isExpected, keywords]

theorem expected_flag {flag : Bool} {tokens : List Token} (own : Expected tokens) :
    Expected (flagTokens flag tokens) := by
  cases flag
  · exact expected_nil
  · exact own

variable {property : String → Prop}

theorem ColumnDefinition.expected {definition : ColumnDefinition}
    (named : definition.Named property) : Expected definition.tokens := by
  rcases named with ⟨-, spec, typed⟩
  have notNull : Expected [.word "NOT", .word "NULL"] := by decide
  have increment : Expected [.word "AUTO_INCREMENT"] := by decide
  have key : Expected [.word "PRIMARY", .word "KEY"] := by decide
  rw [ColumnDefinition.tokens, typed]
  simp only [expected_append, expected_cons]
  exact ⟨⟨rfl, expected_sqlType spec⟩,
    ⟨expected_flag notNull, expected_flag increment⟩, expected_flag key⟩

theorem expected_unique (columns : List String) : Expected (uniqueTokens columns) := by
  simp [uniqueTokens, expected_names, Token.isExpected, keywords, punctuation]

theorem CreateTable.expected {create : CreateTable} (named : create.Named property) :
    Expected create.tokens := by
  have flag : Expected [.word "IF", .word "NOT", .word "EXISTS"] := by decide
  have defined := expected_separated fun definition member =>
    ColumnDefinition.expected (named.2.1 definition member)
  have gathered : Expected
      (if create.unique.isEmpty then [] else .symbol "," :: uniqueTokens create.unique) := by
    split
    · exact expected_nil
    · exact expected_cons.2 ⟨rfl, expected_unique create.unique⟩
  simp only [CreateTable.tokens, expected_append, expected_cons]
  exact ⟨⟨⟨⟨rfl, rfl, expected_flag flag⟩, rfl, rfl, defined⟩, gathered⟩, rfl, expected_nil⟩

theorem TableAlteration.expected {alteration : TableAlteration}
    (named : alteration.Named property) : Expected alteration.tokens := by
  cases alteration with
  | add definition | modify definition =>
      exact expected_cons.2 ⟨rfl, ColumnDefinition.expected named⟩
  | drop column => simp [TableAlteration.tokens, Token.isExpected, keywords]
  | change column definition =>
      have defined := ColumnDefinition.expected named.2
      simp [TableAlteration.tokens, defined, Token.isExpected, keywords]
  | addUnique columns => exact expected_cons.2 ⟨rfl, expected_unique columns⟩

theorem AlterTable.expected {alter : AlterTable} (named : alter.Named property) :
    Expected alter.tokens := by
  have altered := expected_separated fun alteration member =>
    TableAlteration.expected (named.2 alteration member)
  simp [AlterTable.tokens, altered, Token.isExpected, keywords]

theorem DropTable.expected (drop : DropTable) : Expected drop.tokens := by
  have flag : Expected [.word "IF", .word "EXISTS"] := by decide
  simp [DropTable.tokens, expected_flag flag, Token.isExpected, keywords]

theorem Statement.expected {statement : Statement} (named : statement.Named property) :
    Expected statement.tokens := by
  cases statement with
  | select statement => exact statement.expected
  | insert statement => exact statement.expected
  | update statement => exact statement.expected
  | delete statement => exact statement.expected
  | createTable statement => exact CreateTable.expected named
  | alterTable statement => exact AlterTable.expected named
  | dropTable statement => exact statement.expected

/-! ## Requests -/

/-- What a program can ask for, in any state of what it has built. -/
inductive Request where
  | read (query : Query) (operation : ReadOperation)
  | row (change : RowChange) (operation : RowOperation) (excluded : List String)
  | table (change : TableChange) (operation : TableOperation)

namespace Request

/-- The statement that a request is compiled into. -/
def statement (config : Config) : Request → Except SqlError Statement
  | .read query operation =>
      (query.statement config).1.map fun select => .select (Query.adapted select operation)
  | .row change operation excluded => change.statement config operation excluded
  | .table change operation => change.statement operation

/-- The text that a request gets. -/
def toSql (config : Config) : Request → Except SqlError String
  | .read query operation => (query.toSql config operation).1
  | .row change operation excluded => (change.toSql config operation excluded).1
  | .table change operation => (change.toSql operation).1

variable {config : Config} {request : Request}

/-- The text of a request is that of its statement. -/
theorem toSql_eq : request.toSql config = request.statement config >>= Statement.toSql := by
  cases request with
  | read query operation =>
      rw [toSql, statement, Query.toSql_eq]
      cases (query.statement config).1 <;> rfl
  | row change operation excluded =>
      rw [toSql, statement, RowChange.toSql]
      split <;> rfl
  | table change operation =>
      rw [toSql, statement, TableChange.toSql]
      split <;> rfl

theorem toSql_eq_ok {sql : String} (written : request.toSql config = .ok sql) :
    ∃ statement, request.statement config = .ok statement ∧ statement.toSql = .ok sql := by
  rw [toSql_eq] at written
  exact bind_eq_ok.1 written

/-- All names of the statement of a request were checked or generated. -/
theorem named_statement {statement : Statement} (admitted : Admitted property)
    (compiled : request.statement config = .ok statement) : statement.Named property := by
  cases request with
  | read query operation =>
      rcases map_eq_ok.1 compiled with ⟨select, selected, rfl⟩
      exact Query.named_adapted admitted.toAdmitsIdentifiers
        (Query.named_of_statement admitted selected) operation
  | row change operation excluded =>
      exact RowChange.named_statement admitted.toAdmitsIdentifiers compiled
  | table change operation =>
      exact TableChange.named_statement admitted.toAdmitsIdentifiers compiled

/-- The text that a request gets has the tokens of its statement, whose names can be quoted. -/
theorem tokens_of_toSql {sql : String} (written : request.toSql config = .ok sql) :
    ∃ statement, request.statement config = .ok statement ∧ statement.Named Quotable ∧
      lex sql = .ok statement.tokens := by
  rcases toSql_eq_ok written with ⟨statement, compiled, text⟩
  have named := named_statement quotable_admitted compiled
  rcases Statement.toSql_eq_ok named with ⟨_, spelled, tokens⟩
  rw [text] at spelled
  cases spelled
  exact ⟨statement, compiled, named, tokens⟩

end Request

theorem RowChange.tokens_of_toSql {config : Config} {change : RowChange}
    {operation : RowOperation} {excluded : List String} {sql : String}
    (written : (change.toSql config operation excluded).1 = .ok sql) :
    ∃ statement, change.statement config operation excluded = .ok statement ∧
      statement.Named Quotable ∧ lex sql = .ok statement.tokens := by
  have request : (Request.row change operation excluded).toSql config = .ok sql := written
  exact Request.tokens_of_toSql request

theorem TableChange.toSql_eq_ok_iff {change : TableChange} {operation : TableOperation}
    {sql : String} :
    (change.toSql operation).1 = .ok sql ↔
      ∃ statement, change.statement operation = .ok statement ∧ statement.toSql = .ok sql := by
  have request : (Request.table change operation).toSql {} =
      change.statement operation >>= Statement.toSql := Request.toSql_eq
  rw [← bind_eq_ok, ← request]
  rfl

/-! ## The text of a request -/

/--
The text that a request gets consists of the tokens of its statement, and holds
no other tokens than keywords, punctuation, and the statement's own names,
strings and numbers.
-/
theorem request_text_is_statement
    {config : Config} {request : Request} {sql : String}
    (written : request.toSql config = .ok sql) :
    ∃ statement, request.statement config = .ok statement ∧
      lex sql = .ok statement.tokens ∧ Expected statement.tokens := by
  rcases Request.tokens_of_toSql written with ⟨statement, compiled, named, tokens⟩
  exact ⟨statement, compiled, tokens, Statement.expected named⟩

/-- A search for a text that looks like the end of a statement. -/
def hostileSearch : Request :=
  .read
    { table := "users"
      conditions := ⟨[⟨"name", [.compare .equal (.string "\x27; -- ")]⟩]⟩ }
    .first

def hostileText : String :=
  "SELECT * FROM \x60users\x60 WHERE \x60users\x60.\x60name\x60 = \x27\\\x27; -- \x27 LIMIT 1"

def hostileTokens : List Token :=
  [.word "SELECT", .symbol "*", .word "FROM", .name "users", .word "WHERE", .name "users",
    .symbol ".", .name "name", .symbol "=", .string "\x27; -- ",
    .word "LIMIT", .number "1"]

theorem request_text_is_statement_hostileSearch :
    hostileSearch.toSql {} = .ok hostileText ∧ lex hostileText = .ok hostileTokens ∧
      ∃ statement, hostileSearch.statement {} = .ok statement ∧
        lex hostileText = .ok statement.tokens ∧ Expected statement.tokens := by
  have written : hostileSearch.toSql {} = .ok hostileText := by rfl
  have read : lex hostileText = .ok hostileTokens := by rfl
  exact ⟨written, read, request_text_is_statement written⟩

end SqlScribe
