import SqlScribe.Proofs.TableStatements
import SqlScribe.Proofs.ValidNames

/-!
# What a CREATE TABLE declares

The text of a CREATE TABLE holds one declaration for each column of the change,
in the same order, and after them a clause with the unique columns.  What a
declaration says depends on which addons the column has, not on how often they
are listed.
-/

namespace SqlScribe

open Checked Lexis

/-- The word of the type of columns with a content, and the size of those that give none. -/
def ColumnContent.declared : ColumnContent → String × Option ColumnSize
  | .string => ("VARCHAR", some (.length 30))
  | .email => ("VARCHAR", some (.length 60))
  | .password => ("VARCHAR", some (.length 250))
  | .text => ("TEXT", none)
  | .integer => ("INT", some (.length 11))
  | .pointer => ("INT", some (.length 11))
  | .float => ("FLOAT", some (.precision 14 2))
  | .money => ("FLOAT", some (.precision 14 2))
  | .geopoint => ("FLOAT", some (.precision 12 8))
  | .datetime => ("DATETIME", none)
  | .acl => ("TEXT", none)

theorem ColumnContent.declared_eq (content : ColumnContent) :
    content.declared = (content.typeName, content.size?) := by
  cases content <;> rfl

namespace ColumnSpec

/-- The tokens of a column type; a size that is given replaces that of the content. -/
def typeTokens (spec : ColumnSpec) : List Token :=
  let size := if spec.size.isSome then spec.size else spec.content.declared.2
  .word spec.content.declared.1 :: (size.map sizeTokens).getD []

theorem typeTokens_eq (spec : ColumnSpec) : Lexis.typeTokens spec.sqlType = spec.typeTokens := by
  rw [typeTokens_sqlType, typeTokens, ColumnContent.declared_eq]
  cases spec.size <;> rfl

/-- The tokens by which a column is declared. -/
def declaration (name : String) (spec : ColumnSpec) : List Token :=
  let notNull : List Token :=
    if .primary ∈ spec.addons ∨ .required ∈ spec.addons then [.word "NOT", .word "NULL"] else []
  let counted : List Token := if .increment ∈ spec.addons then [.word "AUTO_INCREMENT"] else []
  let key : List Token := if .primary ∈ spec.addons then [.word "PRIMARY", .word "KEY"] else []
  .name name :: spec.typeTokens ++ (notNull ++ counted ++ key)

theorem tokens_definition (name : String) (spec : ColumnSpec) :
    (spec.definition name).tokens = spec.declaration name := by
  simp [ColumnDefinition.tokens, definition, declaration, typeTokens_eq, flagTokens, has]

end ColumnSpec

theorem separatedTokens_concat {items : List (List Token)} (some : items ≠ []) (last : List Token) :
    separatedTokens (items ++ [last]) = separatedTokens items ++ .symbol "," :: last := by
  induction items with
  | nil => exact absurd rfl some
  | cons item rest step =>
      cases rest with
      | nil => rfl
      | cons next others =>
          have tail := step (List.cons_ne_nil next others)
          simp only [List.cons_append, separatedTokens] at tail ⊢
          simp [tail]

namespace TableChange

variable {change : TableChange}

/-- What stands between the parentheses: the columns, and a clause if some are to be unique. -/
def declarations (change : TableChange) : List (List Token) :=
  change.columns.map (fun column => column.2.declaration column.1) ++
    if change.uniqueColumns = [] then [] else [uniqueTokens change.uniqueColumns]

/-- The tokens of a CREATE TABLE after the words at its beginning. -/
def creationTokens (change : TableChange) : List Token :=
  .name change.table :: .symbol "(" :: separatedTokens change.declarations ++ [.symbol ")"]

theorem bodyTokens_of_creation {ifNotExists : Bool} {create : CreateTable}
    (created : change.creation ifNotExists = .ok create) :
    create.bodyTokens = change.creationTokens := by
  rcases creation_eq_ok.1 created with ⟨creatable, rfl⟩
  have declared : change.columns.map (fun column => column.2.declaration column.1) ≠ [] := by
    simpa using creatable.nonempty
  by_cases plain : change.uniqueColumns = []
  · simp [CreateTable.bodyTokens, creationTokens, declarations, plain, Function.comp_def,
      ColumnSpec.tokens_definition]
  · simp [CreateTable.bodyTokens, creationTokens, declarations, plain, Function.comp_def,
      ColumnSpec.tokens_definition, separatedTokens_concat declared]

/-- The two kinds of CREATE TABLE differ in the words at their beginning only. -/
theorem toSql_of_texts {create : CreateTable} {body : List Char}
    (written : Fragment.texts create.body = .ok body) :
    (Statement.createTable create).toSql =
      .ok ((if create.ifNotExists then "CREATE TABLE IF NOT EXISTS " else "CREATE TABLE ") ++
        String.ofList body) := by
  have words : Fragment.texts create.words =
      .ok
        (if create.ifNotExists then "CREATE TABLE IF NOT EXISTS " else "CREATE TABLE ").toList := by
    unfold CreateTable.words
    cases create.ifNotExists <;> rfl
  rw [Statement.toSql, Statement.fragments, CreateTable.fragments_eq, map_eq_ok]
  refine ⟨_, texts_append.2 ⟨_, body, words, written, rfl⟩, ?_⟩
  rw [String.ofList_append, String.ofList_toList]

/-- A table that can be created has a text, and one with other words at its beginning. -/
theorem toSql_of_creatable (creatable : change.Creatable) :
    ∃ body : String,
      (change.toSql .create).1 = .ok ("CREATE TABLE " ++ body) ∧
        (change.toSql .createIfMissing).1 = .ok ("CREATE TABLE IF NOT EXISTS " ++ body) ∧
        lex body = .ok change.creationTokens := by
  have created (ifNotExists : Bool) := (@creation_eq_ok change ifNotExists _).2 ⟨creatable, rfl⟩
  have named := named_creation quotable_admitted.toAdmitsIdentifiers (created false)
  rcases (CreateTable.spelled_body named).lex with ⟨text, written, read⟩
  rw [bodyTokens_of_creation (created false)] at read
  refine ⟨String.ofList text, ?_, ?_, read⟩
  · exact toSql_eq_ok_iff.2 ⟨_, map_eq_ok.2 ⟨_, created false, rfl⟩, toSql_of_texts written⟩
  · exact toSql_eq_ok_iff.2 ⟨_, map_eq_ok.2 ⟨_, created true, rfl⟩, toSql_of_texts written⟩

theorem creatable_of_toSql {operation : TableOperation} {sql : String}
    (creating : operation = .create ∨ operation = .createIfMissing)
    (written : (change.toSql operation).1 = .ok sql) : change.Creatable := by
  rcases toSql_eq_ok_iff.1 written with ⟨statement, compiled, -⟩
  rcases creating with rfl | rfl
  all_goals
    rcases map_eq_ok.1 compiled with ⟨_, created, -⟩
    exact (creation_eq_ok.1 created).1

/-- The names of the unique columns are names of columns, in the same order. -/
theorem uniqueColumns_sublist (change : TableChange) :
    change.uniqueColumns.Sublist (change.columns.map Prod.fst) :=
  List.filter_sublist.map Prod.fst

/-- Where names are different, a name is listed exactly if its column is to be unique. -/
theorem mem_uniqueColumns_iff (distinct : (change.columns.map Prod.fst).Nodup)
    {column : String × ColumnSpec} (member : column ∈ change.columns) :
    column.1 ∈ change.uniqueColumns ↔ .unique ∈ column.2.addons := by
  simp only [uniqueColumns, List.mem_map, List.mem_filter, decide_eq_true_eq]
  constructor
  · rintro ⟨other, ⟨present, unique⟩, same⟩
    rw [← List.inj_on_of_nodup_map distinct present member same]
    exact unique
  · exact fun unique => ⟨column, ⟨member, unique⟩, rfl⟩

end TableChange

/--
There is a CREATE TABLE exactly if the names of the table and its columns are
valid, and there are columns, with different names; that the table may exist
makes no difference to this, and none to the text but for three words.  The
text declares the columns in order, and after them it lists those that are to
be unique, each of them once and in the same order.
-/
theorem tables_created_as_described (change : TableChange) :
    ((∃ sql, (change.toSql .create).1 = .ok sql) ↔ change.Creatable) ∧
      ((∃ sql, (change.toSql .createIfMissing).1 = .ok sql) ↔ change.Creatable) ∧
      (change.Creatable →
        ∃ body : String,
          (change.toSql .create).1 = .ok ("CREATE TABLE " ++ body) ∧
            (change.toSql .createIfMissing).1 = .ok ("CREATE TABLE IF NOT EXISTS " ++ body) ∧
            lex body = .ok change.creationTokens ∧
            change.uniqueColumns.Sublist (change.columns.map Prod.fst) ∧
            change.uniqueColumns.Nodup ∧
            ∀ column ∈ change.columns,
              column.1 ∈ change.uniqueColumns ↔ .unique ∈ column.2.addons) := by
  have listed := change.uniqueColumns_sublist
  have written (creatable : change.Creatable) := TableChange.toSql_of_creatable creatable
  refine ⟨⟨?_, fun creatable => ?_⟩, ⟨?_, fun creatable => ?_⟩, fun creatable => ?_⟩
  · rintro ⟨sql, created⟩
    exact TableChange.creatable_of_toSql (.inl rfl) created
  · rcases written creatable with ⟨_, created, -⟩
    exact ⟨_, created⟩
  · rintro ⟨sql, created⟩
    exact TableChange.creatable_of_toSql (.inr rfl) created
  · rcases written creatable with ⟨_, -, created, -⟩
    exact ⟨_, created⟩
  · rcases written creatable with ⟨body, created, beside, read⟩
    exact ⟨body, created, beside, read, listed, listed.nodup creatable.distinct,
      fun column member => TableChange.mem_uniqueColumns_iff creatable.distinct member⟩

/-- A table with columns of several types and sizes, some with an addon listed more than once. -/
def accountsTable : TableChange where
  table := "accounts"
  columns :=
    [("number", { content := .integer, addons := [.primary, .increment, .primary] }),
      ("email",
        { content := .string
          size := some (.length 190)
          addons := [.unique, .required, .unique] }),
      ("handle", { content := .string, addons := [.unique] }),
      ("balance", { content := .money, addons := [.required] }),
      ("place", { content := .geopoint, size := some (.precision 9 6) }),
      ("since", { content := .datetime })]

theorem tables_created_as_described_accounts :
    accountsTable.Creatable ∧
      ∃ body : String,
        (accountsTable.toSql .create).1 = .ok ("CREATE TABLE " ++ body) ∧
          (accountsTable.toSql .createIfMissing).1 = .ok ("CREATE TABLE IF NOT EXISTS " ++ body) ∧
          lex body = .ok
            [.name "accounts", .symbol "(",
              .name "number", .word "INT", .symbol "(", .number "11", .symbol ")",
              .word "NOT", .word "NULL", .word "AUTO_INCREMENT", .word "PRIMARY", .word "KEY",
              .symbol ",",
              .name "email", .word "VARCHAR", .symbol "(", .number "190", .symbol ")",
              .word "NOT", .word "NULL", .symbol ",",
              .name "handle", .word "VARCHAR", .symbol "(", .number "30", .symbol ")", .symbol ",",
              .name "balance", .word "FLOAT", .symbol "(", .number "14", .symbol ",", .number "2",
              .symbol ")", .word "NOT", .word "NULL", .symbol ",",
              .name "place", .word "FLOAT", .symbol "(", .number "9", .symbol ",", .number "6",
              .symbol ")", .symbol ",",
              .name "since", .word "DATETIME", .symbol ",",
              .word "UNIQUE", .symbol "(", .name "email", .symbol ",", .name "handle", .symbol ")",
              .symbol ")"] := by
  have created : accountsTable.creation false =
      .ok ⟨"accounts", false,
        [⟨"number", "INT(11)", true, true, true⟩, ⟨"email", "VARCHAR(190)", true, false, false⟩,
          ⟨"handle", "VARCHAR(30)", false, false, false⟩,
          ⟨"balance", "FLOAT(14,2)", true, false, false⟩,
          ⟨"place", "FLOAT(9,6)", false, false, false⟩,
          ⟨"since", "DATETIME", false, false, false⟩],
        ["email", "handle"]⟩ := by
    cbv
  have creatable := (TableChange.creation_eq_ok.1 created).1
  rcases (tables_created_as_described accountsTable).2.2 creatable with
    ⟨body, text, beside, read, -⟩
  exact ⟨creatable, body, text, beside, read⟩

end SqlScribe
