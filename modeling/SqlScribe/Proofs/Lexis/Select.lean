import SqlScribe.Proofs.Lexis.Spelling
import SqlScribe.Proofs.Named

/-!
# The tokens of SELECT statements

The tokens of a tree are given by its shape: a name for each of its names, the
tokens of each of its values, and fixed words and symbols between them.  If its
names can be quoted, then it can be written, and the lexer finds these tokens in
its text.
-/

namespace SqlScribe

open Lexis

/-! ## Names -/

theorem IsIdentifier.quotable {name : String} (identifier : IsIdentifier name) : Quotable name where
  nonempty := by
    intro empty
    rw [IsIdentifier, empty] at identifier
    cases identifier
  nulFree := fun member => absurd (identifier.part member) (by decide)
  undotted := identifier.no_dot

theorem quotable_generatedAlias (depth number : Nat) : Quotable (generatedAlias depth number) := by
  constructor <;> simp [generatedAlias, not_mem_decimal]

theorem quotable_admitted : Admitted Quotable where
  identifier := IsIdentifier.quotable
  generated := quotable_generatedAlias

/-! ## Tokens -/

def TableRef.tokens (table : TableRef) : List Token :=
  match table.aliasName with
  | none => [.name table.name]
  | some aliasName => [.name table.name, .word "AS", .name aliasName]

def ColumnRef.tokens (column : ColumnRef) : List Token :=
  match column.qualifier with
  | none => [.name column.name]
  | some qualifier => [.name qualifier, .symbol ".", .name column.name]

def SelectItem.tokens (item : SelectItem) : List Token :=
  match item.output with
  | none => item.column.tokens
  | some output => item.column.tokens ++ [.word "AS", .name output]

def Projection.tokens : Projection → List Token
  | .all => [.symbol "*"]
  | .columns items => separatedTokens (items.map SelectItem.tokens)
  | .count output =>
      [.word "COUNT", .symbol "(", .symbol "*", .symbol ")", .word "AS", .name output]

def SortDirection.token : SortDirection → Token
  | .ascending => .word "ASC"
  | .descending => .word "DESC"

def OrderKey.tokens (key : OrderKey) : List Token := key.column.tokens ++ [key.direction.token]

def OrderKey.clauseTokens : List OrderKey → List Token
  | [] => []
  | keys => .word "ORDER" :: .word "BY" :: separatedTokens (keys.map OrderKey.tokens)

def Limit.tokens : Limit → List Token
  | ⟨none, none⟩ => []
  | ⟨none, some count⟩ => [.word "LIMIT", .number (toString count)]
  | ⟨some skip, none⟩ => [.word "LIMIT", .number (toString skip), .symbol ",", .number "0"]
  | ⟨some skip, some count⟩ =>
      [.word "LIMIT", .number (toString skip), .symbol ",", .number (toString count)]

/-- The tokens of a condition that is always true. -/
def truthTokens : List Token := [.number "1", .symbol "=", .number "1"]

def nullCheckTokens (isNull : Bool) : List Token :=
  if isNull then [.word "IS", .word "NULL"] else [.word "IS", .word "NOT", .word "NULL"]

/-- The tokens between a column and the list or the query that it is looked for in. -/
def membershipTokens (negated : Bool) : List Token :=
  if negated then [.word "NOT", .word "IN", .symbol "("] else [.word "IN", .symbol "("]

/-- The symbol between the sides of a comparison. -/
def comparisonToken : Comparison → Token
  | .equal => .symbol "="
  | .notEqual => .symbol "!="
  | .greater => .symbol ">"
  | .greaterOrEqual => .symbol ">="
  | .less => .symbol "<"
  | .lessOrEqual => .symbol "<="

mutual

def Expr.tokens : Expr → List Token
  | .column column => column.tokens
  | .concat columns =>
      .word "CONCAT" :: .symbol "(" :: separatedTokens (columns.map ColumnRef.tokens) ++
        [.symbol ")"]
  | .literal value => valueTokens value
  | .compare left comparison right => left.tokens ++ comparisonToken comparison :: right.tokens
  | .like subject pattern => subject.tokens ++ [.word "LIKE", .string pattern]
  | .nullCheck subject isNull => subject.tokens ++ nullCheckTokens isNull
  | .inList subject values negated =>
      if values.isEmpty then truthTokens
      else
        subject.tokens ++
          (membershipTokens negated ++ separatedTokens (values.map valueTokens)) ++ [.symbol ")"]
  | .inSelect subject query negated =>
      subject.tokens ++ (membershipTokens negated ++ query.tokens) ++ [.symbol ")"]
  | .and [] => truthTokens
  | .and (part :: rest) => part.tokens ++ Expr.furtherTokens rest
  | .group inner => .symbol "(" :: inner.tokens ++ [.symbol ")"]
  | .truth => truthTokens

def Expr.furtherTokens : List Expr → List Token
  | [] => []
  | part :: rest => .word "AND" :: part.tokens ++ Expr.furtherTokens rest

def Join.tokens : Join → List Token
  | ⟨table, condition⟩ =>
      .word "LEFT" :: .word "OUTER" :: .word "JOIN" :: table.tokens ++
        .word "ON" :: condition.tokens

def Join.clauseTokens : List Join → List Token
  | [] => []
  | join :: rest => join.tokens ++ Join.clauseTokens rest

def Select.tokens : Select → List Token
  | ⟨projection, source, joins, condition, order, limit⟩ =>
      .word "SELECT" :: projection.tokens ++ .word "FROM" :: source.tokens ++
        Join.clauseTokens joins ++
        (match condition with
        | none => []
        | some condition => .word "WHERE" :: condition.tokens) ++
        OrderKey.clauseTokens order ++ limit.tokens

end

/-! ## Tables and columns -/

theorem TableRef.spelled {table : TableRef} (named : table.Named Quotable) :
    Spelled table.fragments table.tokens := by
  rcases table with ⟨name, _ | aliasName⟩
  · exact spelled_name named.1
  · have written : Opening [.code " AS "] [.word "AS"] := opening_fixed rfl rfl
    have clause := Clause.opened rfl written (spelled_name (named.2 aliasName rfl))
    exact (spelled_name named.1).clause clause

theorem ColumnRef.spelled {column : ColumnRef} (named : column.Named Quotable) :
    Spelled column.fragments column.tokens := by
  rcases column with ⟨_ | qualifier, name⟩
  · exact spelled_name named.2
  · exact (opening_qualifier (named.1 qualifier rfl)).append_spelled (spelled_name named.2)

theorem SelectItem.spelled {item : SelectItem} (named : item.Named Quotable) :
    Spelled item.fragments item.tokens := by
  rcases item with ⟨column, _ | output⟩
  · exact ColumnRef.spelled named.1
  · have written : Opening [.code " AS "] [.word "AS"] := opening_fixed rfl rfl
    have clause := Clause.opened rfl written (spelled_name (named.2 output rfl))
    exact (ColumnRef.spelled named.1).clause clause

theorem Projection.spelled {projection : Projection} (named : projection.Named Quotable) :
    Spelled projection.fragments projection.tokens := by
  cases projection with
  | all =>
      have written : Opening [.code "*"] [.symbol "*"] := opening_fixed rfl rfl
      exact written.spelled
  | columns items => exact spelled_separated fun item member => SelectItem.spelled (named item member)
  | count output =>
      have written : Opening [.code "COUNT(*) AS "]
          [.word "COUNT", .symbol "(", .symbol "*", .symbol ")", .word "AS"] :=
        opening_fixed rfl rfl
      exact written.append_spelled (spelled_name named)

theorem SortDirection.clause (direction : SortDirection) :
    Clause [.code (match direction with | .ascending => " ASC" | .descending => " DESC")]
      [direction.token] := by
  cases direction
  · exact Clause.fixed rfl rfl rfl
  · exact Clause.fixed rfl rfl rfl

theorem OrderKey.clause_clauseTokens {keys : List OrderKey}
    (named : ∀ key ∈ keys, key.column.Named Quotable) :
    Clause (OrderKey.clause keys) (OrderKey.clauseTokens keys) := by
  cases keys with
  | nil => exact Clause.nil
  | cons key rest =>
      have written : Opening [.code " ORDER BY "] [.word "ORDER", .word "BY"] :=
        opening_fixed rfl rfl
      refine Clause.opened rfl written (spelled_separated fun key member => ?_)
      exact (ColumnRef.spelled (named key member)).clause (SortDirection.clause key.direction)

theorem Limit.clause_tokens (limit : Limit) : Clause limit.clause limit.tokens := by
  have written : Opening [.code " ", .code "LIMIT "] [.word "LIMIT"] := opening_fixed rfl rfl
  have comma : Opening [.code ", "] [.symbol ","] := opening_fixed rfl rfl
  have follows (rest : List Fragment) : Follows (.code " " :: rest) := follows_code rfl
  have skipping (skip count : Nat) :
      Clause [.code " ", .code "LIMIT ", .number skip, .code ", ", .number count]
        [.word "LIMIT", .number (toString skip), .symbol ",", .number (toString count)] := by
    have counted := Clause.opened rfl comma (spelled_natural count)
    exact ⟨written.append_spelled ((spelled_natural skip).clause counted), follows _⟩
  rcases limit with ⟨_ | skip, _ | count⟩
  · exact Clause.nil
  · exact ⟨written.append_spelled (spelled_natural count), follows _⟩
  · exact skipping skip 0
  · exact skipping skip count

/-! ## Conditions and queries -/

theorem spelled_truth : Spelled [.code "1=1"] truthTokens := by
  have through : run .between "1=1".toList =
      .ok ([.number "1", .symbol "="], .whole ['1']) := rfl
  exact ⟨_, rfl, reads_of_run through Mode.settles_whole⟩

theorem opening_comparison (comparison : Comparison) :
    Opening [.code " ", .code comparison.symbol, .code " "] [comparisonToken comparison] := by
  cases comparison <;> exact opening_fixed rfl rfl

theorem clause_nullCheck (isNull : Bool) :
    Clause [.code (if isNull then " IS NULL" else " IS NOT NULL")] (nullCheckTokens isNull) := by
  cases isNull
  · exact Clause.fixed rfl rfl rfl
  · exact Clause.fixed rfl rfl rfl

/-- What stands in parentheses after a column. -/
theorem clause_membership
    {fragments : List Fragment} {tokens : List Token} (negated : Bool)
    (inner : Spelled fragments tokens) :
    Clause (.code (if negated then " NOT IN (" else " IN (") :: fragments)
      (membershipTokens negated ++ tokens) := by
  cases negated
  · exact Clause.opened rfl (opening_fixed rfl rfl) inner
  · exact Clause.opened rfl (opening_fixed rfl rfl) inner

theorem clause_closing : Clause [.code ")"] [.symbol ")"] := by
  have written : Opening [.code ")"] [.symbol ")"] := opening_fixed rfl rfl
  exact ⟨written.spelled, follows_code rfl⟩

mutual

theorem Expr.spelled : ∀ expr : Expr, expr.Named Quotable → Spelled expr.fragments expr.tokens
  | .column _, named => ColumnRef.spelled named
  | .concat columns, named => by
      have written : Opening [.code "CONCAT("] [.word "CONCAT", .symbol "("] :=
        opening_fixed rfl rfl
      have listed := spelled_separated fun column member => ColumnRef.spelled (named column member)
      exact (written.append_spelled listed).clause clause_closing
  | .literal value, _ => spelled_value value
  | .compare left comparison right, named => by
      have operator := (opening_comparison comparison).append_spelled (right.spelled named.2)
      have whole := (left.spelled named.1).append operator (follows_code rfl)
      rw [← List.append_assoc] at whole
      exact whole
  | .like subject pattern, named => by
      have written : Opening [.code " LIKE "] [.word "LIKE"] := opening_fixed rfl rfl
      have matched := Clause.opened rfl written (spelled_value (.string pattern))
      exact (subject.spelled named).clause matched
  | .nullCheck subject isNull, named => (subject.spelled named).clause (clause_nullCheck isNull)
  | .inList subject values negated, named => by
      unfold Expr.fragments Expr.tokens
      split
      · exact spelled_truth
      · have listed := spelled_separated fun value (_ : value ∈ values) => spelled_value value
        have inner := clause_membership negated listed
        exact ((subject.spelled named).clause inner).clause clause_closing
  | .inSelect subject query negated, named => by
      have inner := clause_membership negated (query.spelled named.2)
      exact ((subject.spelled named.1).clause inner).clause clause_closing
  | .and [], _ => spelled_truth
  | .and (part :: rest), named => (part.spelled named.1).clause (Expr.clause_further rest named.2)
  | .group inner, named => by
      have written : Opening [.code "("] [.symbol "("] := opening_fixed rfl rfl
      exact (written.append_spelled (inner.spelled named)).clause clause_closing
  | .truth, _ => spelled_truth

theorem Expr.clause_further : ∀ parts : List Expr, Expr.AllNamed Quotable parts →
    Clause (Expr.furtherParts parts) (Expr.furtherTokens parts)
  | [], _ => Clause.nil
  | part :: rest, named => by
      have written : Opening [.code " AND "] [.word "AND"] := opening_fixed rfl rfl
      have own := Clause.opened rfl written (part.spelled named.1)
      exact own.append (Expr.clause_further rest named.2)

theorem Join.clause : ∀ joins : List Join, Join.AllNamed Quotable joins →
    Clause (Join.clauses joins) (Join.clauseTokens joins)
  | [], _ => Clause.nil
  | ⟨table, condition⟩ :: rest, named => by
      have written : Opening [.code " ", .code "LEFT OUTER JOIN "]
          [.word "LEFT", .word "OUTER", .word "JOIN"] := opening_fixed rfl rfl
      have on : Opening [.code " ON "] [.word "ON"] := opening_fixed rfl rfl
      have joined := written.append_spelled (TableRef.spelled named.1.1)
      have conditioned := joined.clause (Clause.opened rfl on (condition.spelled named.1.2))
      have own : Clause (.code " " :: Join.fragments ⟨table, condition⟩)
          (Join.tokens ⟨table, condition⟩) := ⟨conditioned, follows_code rfl⟩
      exact own.append (Join.clause rest named.2)

theorem Select.spelled : ∀ select : Select, select.Named Quotable →
    Spelled select.fragments select.tokens
  | ⟨projection, source, joins, condition, order, limit⟩, named => by
      rcases Select.named_iff.1 named with ⟨projected, sourced, joined, conditioned, ordered⟩
      have opening : Opening [.code "SELECT "] [.word "SELECT"] := opening_fixed rfl rfl
      have origin : Opening [.code " FROM "] [.word "FROM"] := opening_fixed rfl rfl
      have filter : Opening [.code " WHERE "] [.word "WHERE"] := opening_fixed rfl rfl
      have front := opening.append_spelled (Projection.spelled projected)
      have tables := (front.clause (Clause.opened rfl origin (TableRef.spelled sourced))).clause
        (Join.clause joins (Join.allNamed_iff.2 joined))
      have sorted := OrderKey.clause_clauseTokens ordered
      cases condition with
      | none => exact ((tables.clause Clause.nil).clause sorted).clause limit.clause_tokens
      | some condition =>
          have kept := Clause.opened rfl filter (condition.spelled (conditioned condition rfl))
          exact ((tables.clause kept).clause sorted).clause limit.clause_tokens

end

end SqlScribe
