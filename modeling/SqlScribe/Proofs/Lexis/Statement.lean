import SqlScribe.Proofs.Lexis.Select

/-!
# The tokens of statements

As for queries, the tokens of a statement are given by its shape, and the lexer
finds them in its text.
-/

namespace SqlScribe

open Checked Lexis

/-! ## Tokens -/

def Assignment.tokens (assignment : Assignment) : List Token :=
  .name assignment.column :: .symbol "=" ::
    match assignment.value with
    | .literal value => valueTokens value
    | .increment delta =>
        .name assignment.column :: .symbol "+" :: .symbol "(" ::
          numberTokens (decimalText delta) ++ [.symbol ")"]
    | .inserted => [.word "VALUES", .symbol "(", .name assignment.column, .symbol ")"]
    | .unchanged => [.name assignment.column]

def Assignment.onDuplicateTokens : List Assignment → List Token
  | [] => []
  | assignments =>
      .word "ON" :: .word "DUPLICATE" :: .word "KEY" :: .word "UPDATE" ::
        separatedTokens (assignments.map Assignment.tokens)

def nameTokens (names : List String) : List Token :=
  separatedTokens (names.map fun name => [.name name])

def Insert.tokens (insert : Insert) : List Token :=
  .word "INSERT" :: .word "INTO" :: .name insert.table :: .symbol "(" ::
    nameTokens insert.columns ++
    .symbol ")" :: .word "VALUES" :: .symbol "(" ::
      separatedTokens (insert.values.map valueTokens) ++
    .symbol ")" :: Assignment.onDuplicateTokens insert.onDuplicate

def Update.tokens (update : Update) : List Token :=
  .word "UPDATE" :: .name update.table :: .word "SET" ::
    separatedTokens (update.assignments.map Assignment.tokens) ++
    .word "WHERE" :: update.condition.tokens

def Delete.tokens (delete : Delete) : List Token :=
  .word "DELETE" :: .word "FROM" :: .name delete.table :: .word "WHERE" :: delete.condition.tokens

/-- Some tokens, if they are called for. -/
def flagTokens (flag : Bool) (tokens : List Token) : List Token := if flag then tokens else []

def ColumnDefinition.tokens (definition : ColumnDefinition) : List Token :=
  .name definition.name :: typeTokens definition.sqlType ++
    (flagTokens definition.notNull [.word "NOT", .word "NULL"] ++
      flagTokens definition.autoIncrement [.word "AUTO_INCREMENT"] ++
      flagTokens definition.primaryKey [.word "PRIMARY", .word "KEY"])

def uniqueTokens (columns : List String) : List Token :=
  .word "UNIQUE" :: .symbol "(" :: nameTokens columns ++ [.symbol ")"]

def CreateTable.tokens (create : CreateTable) : List Token :=
  .word "CREATE" :: .word "TABLE" ::
    flagTokens create.ifNotExists [.word "IF", .word "NOT", .word "EXISTS"] ++
    .name create.table :: .symbol "(" ::
      separatedTokens (create.columns.map ColumnDefinition.tokens) ++
    (if create.unique.isEmpty then [] else .symbol "," :: uniqueTokens create.unique) ++
    [.symbol ")"]

def TableAlteration.tokens : TableAlteration → List Token
  | .add definition => .word "ADD" :: definition.tokens
  | .modify definition => .word "MODIFY" :: definition.tokens
  | .drop column => [.word "DROP", .word "COLUMN", .name column]
  | .change column definition =>
      .word "CHANGE" :: .word "COLUMN" :: .name column :: definition.tokens
  | .addUnique columns => .word "ADD" :: uniqueTokens columns

def AlterTable.tokens (alter : AlterTable) : List Token :=
  .word "ALTER" :: .word "TABLE" :: .name alter.table ::
    separatedTokens (alter.alterations.map TableAlteration.tokens)

def DropTable.tokens (drop : DropTable) : List Token :=
  .word "DROP" :: .word "TABLE" :: flagTokens drop.ifExists [.word "IF", .word "EXISTS"] ++
    [.name drop.table]

def Statement.tokens : Statement → List Token
  | .select statement => statement.tokens
  | .insert statement => statement.tokens
  | .update statement => statement.tokens
  | .delete statement => statement.tokens
  | .createTable statement => statement.tokens
  | .alterTable statement => statement.tokens
  | .dropTable statement => statement.tokens

/-! ## Changes of rows -/

theorem Assignment.spelled {assignment : Assignment} (named : Quotable assignment.column) :
    Spelled assignment.fragments assignment.tokens := by
  have equals : Opening [.code " = "] [.symbol "="] := opening_fixed rfl rfl
  have column := spelled_name named
  rcases assignment with ⟨name, value⟩
  cases value with
  | literal value => exact column.clause (Clause.opened rfl equals (spelled_value value))
  | increment delta =>
      have plus : Opening [.code " + ("] [.symbol "+", .symbol "("] := opening_fixed rfl rfl
      have counted := (spelled_number delta).clause clause_closing
      have added := column.clause (Clause.opened rfl plus counted)
      exact column.clause (Clause.opened rfl equals added)
  | inserted =>
      have values : Opening [.code " = ", .code "VALUES("]
          [.symbol "=", .word "VALUES", .symbol "("] := opening_fixed rfl rfl
      have inner := values.append_spelled (column.clause clause_closing)
      exact column.append inner (follows_code rfl)
  | unchanged => exact column.clause (Clause.opened rfl equals column)

theorem Assignment.clause_onDuplicate {assignments : List Assignment}
    (named : ∀ assignment ∈ assignments, Quotable assignment.column) :
    Clause (onDuplicateClause assignments) (onDuplicateTokens assignments) := by
  cases assignments with
  | nil => exact Clause.nil
  | cons first rest =>
      have written : Opening [.code " ON DUPLICATE KEY UPDATE "]
          [.word "ON", .word "DUPLICATE", .word "KEY", .word "UPDATE"] := opening_fixed rfl rfl
      apply Clause.opened rfl written
      exact spelled_separated fun assignment member => Assignment.spelled (named assignment member)

theorem spelled_nameList {names : List String} (named : ∀ name ∈ names, Quotable name) :
    Spelled (nameList names) (nameTokens names) :=
  spelled_separated fun name member => spelled_name (named name member)

theorem Insert.spelled {insert : Insert} (named : insert.Named Quotable) :
    Spelled insert.fragments insert.tokens := by
  rcases named with ⟨table, columns, duplicates⟩
  have opening : Opening [.code "INSERT INTO "] [.word "INSERT", .word "INTO"] :=
    opening_fixed rfl rfl
  have listing : Opening [.code " ("] [.symbol "("] := opening_fixed rfl rfl
  have middle : Opening [.code ") VALUES ("] [.symbol ")", .word "VALUES", .symbol "("] :=
    opening_fixed rfl rfl
  have closing : Opening [.code ")"] [.symbol ")"] := opening_fixed rfl rfl
  have listed := Clause.opened rfl listing (spelled_nameList columns)
  have target := opening.append_spelled ((spelled_name table).clause listed)
  have row := spelled_separated fun value (_ : value ∈ insert.values) => spelled_value value
  have assigned := (Assignment.clause_onDuplicate duplicates).spelled
  exact (target.clause (Clause.opened rfl middle row)).clause (Clause.opened rfl closing assigned)

theorem Update.spelled {update : Update} (named : update.Named Quotable) :
    Spelled update.fragments update.tokens := by
  rcases named with ⟨table, assigned, condition⟩
  have opening : Opening [.code "UPDATE "] [.word "UPDATE"] := opening_fixed rfl rfl
  have setting : Opening [.code " SET "] [.word "SET"] := opening_fixed rfl rfl
  have filter : Opening [.code " WHERE "] [.word "WHERE"] := opening_fixed rfl rfl
  have assignments := spelled_separated fun assignment member =>
    Assignment.spelled (assigned assignment member)
  have target := (spelled_name table).clause (Clause.opened rfl setting assignments)
  have selected := Clause.opened rfl filter (Expr.spelled update.condition condition)
  exact (opening.append_spelled target).clause selected

theorem Delete.spelled {delete : Delete} (named : delete.Named Quotable) :
    Spelled delete.fragments delete.tokens := by
  rcases named with ⟨table, condition⟩
  have opening : Opening [.code "DELETE FROM "] [.word "DELETE", .word "FROM"] :=
    opening_fixed rfl rfl
  have filter : Opening [.code " WHERE "] [.word "WHERE"] := opening_fixed rfl rfl
  have selected := Clause.opened rfl filter (Expr.spelled delete.condition condition)
  exact opening.append_spelled ((spelled_name table).clause selected)

/-! ## Changes of tables -/

theorem clause_flag
    {fragments : List Fragment} {tokens : List Token} (flag : Bool)
    (own : Clause fragments tokens) :
    Clause (if flag then fragments else []) (flagTokens flag tokens) := by
  cases flag
  · exact Clause.nil
  · exact own

theorem ColumnDefinition.spelled {definition : ColumnDefinition}
    (named : definition.Named Quotable) : Spelled definition.fragments definition.tokens := by
  rcases named with ⟨name, spec, typed⟩
  have blank : Opening [.code " "] [] := opening_fixed rfl rfl
  have sqlType : Spelled [.code definition.sqlType] (typeTokens definition.sqlType) := by
    rw [typed]
    exact ⟨_, texts_singleton.2 rfl, reads_sqlType spec⟩
  have notNull : Clause [.code " NOT NULL"] [.word "NOT", .word "NULL"] :=
    Clause.fixed rfl rfl rfl
  have increment : Clause [.code " AUTO_INCREMENT"] [.word "AUTO_INCREMENT"] :=
    Clause.fixed rfl rfl rfl
  have key : Clause [.code " PRIMARY KEY"] [.word "PRIMARY", .word "KEY"] :=
    Clause.fixed rfl rfl rfl
  have flags := ((clause_flag definition.notNull notNull).append
    (clause_flag definition.autoIncrement increment)).append
      (clause_flag definition.primaryKey key)
  have described := Clause.opened rfl blank (sqlType.clause flags)
  exact (spelled_name name).clause described

theorem spelled_unique {columns : List String} (named : ∀ column ∈ columns, Quotable column) :
    Spelled (uniqueFragments columns) (uniqueTokens columns) := by
  have written : Opening [.code "UNIQUE ("] [.word "UNIQUE", .symbol "("] := opening_fixed rfl rfl
  exact (written.append_spelled (spelled_nameList named)).clause clause_closing

/-- The words at the beginning of a CREATE TABLE. -/
def CreateTable.words (create : CreateTable) : List Fragment :=
  .code "CREATE TABLE " :: if create.ifNotExists then [.code "IF NOT EXISTS "] else []

/-- What a CREATE TABLE consists of after these words. -/
def CreateTable.body (create : CreateTable) : List Fragment :=
  .name create.table :: .code " (" ::
    Fragment.separated (create.columns.map ColumnDefinition.fragments) ++
    (if create.unique.isEmpty then [] else .code ", " :: uniqueFragments create.unique) ++
    [.code ")"]

def CreateTable.bodyTokens (create : CreateTable) : List Token :=
  .name create.table :: .symbol "(" ::
    separatedTokens (create.columns.map ColumnDefinition.tokens) ++
    (if create.unique.isEmpty then [] else .symbol "," :: uniqueTokens create.unique) ++
    [.symbol ")"]

theorem CreateTable.spelled_body {create : CreateTable} (named : create.Named Quotable) :
    Spelled create.body create.bodyTokens := by
  rcases named with ⟨table, columns, unique⟩
  have listing : Opening [.code " ("] [.symbol "("] := opening_fixed rfl rfl
  have comma : Opening [.code ", "] [.symbol ","] := opening_fixed rfl rfl
  have defined := spelled_separated fun definition member =>
    ColumnDefinition.spelled (columns definition member)
  have gathered : Clause
      (if create.unique.isEmpty then [] else .code ", " :: uniqueFragments create.unique)
      (if create.unique.isEmpty then [] else .symbol "," :: uniqueTokens create.unique) := by
    split
    · exact Clause.nil
    · exact Clause.opened rfl comma (spelled_unique unique)
  have target := (spelled_name table).clause (Clause.opened rfl listing defined)
  exact (target.clause gathered).clause clause_closing

theorem CreateTable.fragments_eq (create : CreateTable) :
    create.fragments = create.words ++ create.body := by
  simp [fragments, words, body]

theorem CreateTable.spelled {create : CreateTable} (named : create.Named Quotable) :
    Spelled create.fragments create.tokens := by
  have opening : Opening create.words
      (.word "CREATE" :: .word "TABLE" ::
        flagTokens create.ifNotExists [.word "IF", .word "NOT", .word "EXISTS"]) := by
    unfold words
    cases create.ifNotExists
    · exact opening_fixed rfl rfl
    · exact opening_fixed rfl rfl
  have whole := opening.append_spelled (CreateTable.spelled_body named)
  rw [fragments_eq]
  simpa [tokens, bodyTokens] using whole

theorem TableAlteration.spelled {alteration : TableAlteration}
    (named : alteration.Named Quotable) : Spelled alteration.fragments alteration.tokens := by
  cases alteration with
  | add definition =>
      have written : Opening [.code "ADD "] [.word "ADD"] := opening_fixed rfl rfl
      exact written.append_spelled (ColumnDefinition.spelled named)
  | modify definition =>
      have written : Opening [.code "MODIFY "] [.word "MODIFY"] := opening_fixed rfl rfl
      exact written.append_spelled (ColumnDefinition.spelled named)
  | drop column =>
      have written : Opening [.code "DROP COLUMN "] [.word "DROP", .word "COLUMN"] :=
        opening_fixed rfl rfl
      exact written.append_spelled (spelled_name named)
  | change column definition =>
      have written : Opening [.code "CHANGE COLUMN "] [.word "CHANGE", .word "COLUMN"] :=
        opening_fixed rfl rfl
      have blank : Opening [.code " "] [] := opening_fixed rfl rfl
      have defined := Clause.opened rfl blank (ColumnDefinition.spelled named.2)
      exact written.append_spelled ((spelled_name named.1).clause defined)
  | addUnique columns =>
      have written : Opening [.code "ADD "] [.word "ADD"] := opening_fixed rfl rfl
      exact written.append_spelled (spelled_unique named)

theorem AlterTable.spelled {alter : AlterTable} (named : alter.Named Quotable) :
    Spelled alter.fragments alter.tokens := by
  rcases named with ⟨table, altered⟩
  have opening : Opening [.code "ALTER TABLE "] [.word "ALTER", .word "TABLE"] :=
    opening_fixed rfl rfl
  have blank : Opening [.code " "] [] := opening_fixed rfl rfl
  have alterations := spelled_separated fun alteration member =>
    TableAlteration.spelled (altered alteration member)
  exact opening.append_spelled ((spelled_name table).clause (Clause.opened rfl blank alterations))

theorem DropTable.spelled {drop : DropTable} (named : Quotable drop.table) :
    Spelled drop.fragments drop.tokens := by
  have opening : Opening (.code "DROP TABLE " :: if drop.ifExists then [.code "IF EXISTS "] else [])
      (.word "DROP" :: .word "TABLE" ::
        flagTokens drop.ifExists [.word "IF", .word "EXISTS"]) := by
    cases drop.ifExists
    · exact opening_fixed rfl rfl
    · exact opening_fixed rfl rfl
  exact opening.append_spelled (spelled_name named)

/-! ## Statements -/

theorem Statement.spelled {statement : Statement} (named : statement.Named Quotable) :
    Spelled statement.fragments statement.tokens := by
  cases statement with
  | select statement => exact Select.spelled statement named
  | insert statement => exact Insert.spelled named
  | update statement => exact Update.spelled named
  | delete statement => exact Delete.spelled named
  | createTable statement => exact CreateTable.spelled named
  | alterTable statement => exact AlterTable.spelled named
  | dropTable statement => exact DropTable.spelled named

/-- A statement with quotable names can be written, and the lexer finds its tokens in the text. -/
theorem Statement.toSql_eq_ok {statement : Statement} (named : statement.Named Quotable) :
    ∃ sql, statement.toSql = .ok sql ∧ lex sql = .ok statement.tokens := by
  rcases (Statement.spelled named).lex with ⟨text, written, read⟩
  exact ⟨String.ofList text, map_eq_ok.2 ⟨text, written, rfl⟩, read⟩

end SqlScribe
