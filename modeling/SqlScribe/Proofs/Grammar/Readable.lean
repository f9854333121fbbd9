import SqlScribe.Proofs.Grammar.Select

/-!
# Reading statements back

A tree is readable if its columns are qualified, its values are scalars, and it
is grouped the way the compilers group.  The text of a readable SELECT
determines it but for two things: of a number the text shows only its printed
form, and a LIMIT without a count is written with the count zero.
-/

namespace SqlScribe

open Lexis

/-! ## Readable trees -/

def ColumnRef.Qualified (column : ColumnRef) : Prop := column.qualifier.isSome

def Projection.Readable : Projection → Prop
  | .all | .count _ => True
  | .columns items => items ≠ [] ∧ ∀ item ∈ items, item.column.Qualified

namespace Expr

/-- What can stand on the left of a predicate. -/
def IsSubject : Expr → Prop
  | .column reference => reference.Qualified
  | .concat references => references ≠ [] ∧ ∀ reference ∈ references, reference.Qualified
  | _ => False

/-- What can stand on the right of a comparison. -/
def IsOperand : Expr → Prop
  | .column reference => reference.Qualified
  | .literal value => value.isScalar
  | _ => False

/-- A conjunction stands inside another one only in parentheses. -/
def IsPart : Expr → Prop
  | .and _ => False
  | _ => True

end Expr

mutual

def Expr.Readable : Expr → Prop
  | .column _ | .concat _ | .literal _ => False
  | .compare left _ right => left.IsSubject ∧ right.IsOperand
  | .like subject _ => subject.IsSubject
  | .nullCheck subject _ => subject.IsSubject
  | .inList subject values _ =>
      subject.IsSubject ∧ values ≠ [] ∧ ∀ value ∈ values, value.isScalar
  | .inSelect subject query _ => subject.IsSubject ∧ query.Readable
  | .and parts => 2 ≤ parts.length ∧ Expr.AllReadable parts
  | .group inner => inner.Readable
  | .truth => True

def Expr.AllReadable : List Expr → Prop
  | [] => True
  | part :: rest => (part.Readable ∧ part.IsPart) ∧ Expr.AllReadable rest

def Join.AllReadable : List Join → Prop
  | [] => True
  | ⟨_, condition⟩ :: rest => condition.Readable ∧ Join.AllReadable rest

def Select.Readable : Select → Prop
  | ⟨projection, _, joins, condition, order, _⟩ =>
      projection.Readable ∧ Join.AllReadable joins ∧
        (match condition with
        | none => True
        | some condition => condition.Readable) ∧
        ∀ key ∈ order, key.column.Qualified

end

theorem Select.readable_iff {select : Select} :
    select.Readable ↔
      select.projection.Readable ∧ Join.AllReadable select.joins ∧
        (∀ condition ∈ select.condition, condition.Readable) ∧
        ∀ key ∈ select.order, key.column.Qualified := by
  cases select with
  | mk projection source joins condition order limit =>
      cases condition <;> simp [Select.Readable]

/-! ## What is read back -/

/-- Passing over rows without a count reads back as returning none. -/
def Limit.readBack : Limit → Limit
  | ⟨some skip, none⟩ => ⟨some skip, some 0⟩
  | limit => limit

section ReadBack

variable (numberOf : List Char → JsonNumber)

/-- A scalar, of which a number is known by its text. -/
def Json.readBack : Json → Json
  | .number value => .number (numberOf value.text)
  | value => value

mutual

def Expr.readBack : Expr → Expr
  | .column column => .column column
  | .concat columns => .concat columns
  | .literal value => .literal (value.readBack numberOf)
  | .compare left comparison right => .compare left.readBack comparison right.readBack
  | .like subject pattern => .like subject.readBack pattern
  | .nullCheck subject isNull => .nullCheck subject.readBack isNull
  | .inList subject values negated =>
      .inList subject.readBack (values.map (Json.readBack numberOf)) negated
  | .inSelect subject query negated => .inSelect subject.readBack query.readBack negated
  | .and parts => .and (Expr.allReadBack parts)
  | .group inner => .group inner.readBack
  | .truth => .truth

def Expr.allReadBack : List Expr → List Expr
  | [] => []
  | part :: rest => part.readBack :: Expr.allReadBack rest

def Join.allReadBack : List Join → List Join
  | [] => []
  | ⟨table, condition⟩ :: rest => ⟨table, condition.readBack⟩ :: Join.allReadBack rest

def Select.readBack : Select → Select
  | ⟨projection, source, joins, condition, order, limit⟩ =>
      ⟨projection, source, Join.allReadBack joins,
        (match condition with
        | none => none
        | some condition => some condition.readBack),
        order, limit.readBack⟩

end

end ReadBack

namespace Grammar

variable {numberOf : List Char → JsonNumber} {body : Parser Select} {bound : Nat}

/-! ## Names and lists of columns -/

theorem column_parses {column : ColumnRef} (qualified : column.Qualified) :
    Parses Grammar.column [] column.tokens column := by
  rcases column with ⟨_ | qualifier, field⟩
  · cases qualified
  · exact (name_parses qualifier).andThen (branch_present (name_parses field).map)

theorem table_parses (table : TableRef) :
    Parses Grammar.table [.word "AS"] table.tokens table := by
  rcases table with ⟨table, _ | aliasName⟩
  · exact (name_parses table).andThen (branch_end (Parses.pure _ _) List.mem_cons_self)
  · have named := (name_parses aliasName).mono (List.nil_subset [Token.word "AS"])
    exact (name_parses table).andThen (branch_present named.map)

theorem item_parses {item : SelectItem} (qualified : item.column.Qualified) :
    Parses Grammar.item [.word "AS"] item.tokens item := by
  have own := column_parses qualified
  rcases item with ⟨column, _ | output⟩
  · have whole : Parses Grammar.item [.word "AS"] (column.tokens ++ []) ⟨column, none⟩ :=
      own.andThen (branch_end (Parses.pure _ _) List.mem_cons_self)
    rw [List.append_nil] at whole
    exact whole
  · have named := (name_parses output).mono (List.nil_subset [Token.word "AS"])
    exact own.andThen (branch_present named.map)

theorem direction_parses (direction : SortDirection) :
    Parses Grammar.direction [] [direction.token] direction := by
  cases direction
  · exact branch_present (Parses.pure _ _)
  · exact branch_other (by decide) ((expect_parses (.word "DESC")).andThen (Parses.pure _ _))

theorem orderKey_parses {key : OrderKey} (qualified : key.column.Qualified) :
    Parses Grammar.orderKey [] key.tokens key :=
  (column_parses qualified).andThen (direction_parses key.direction).map

/-! ## Clauses -/

theorem Avoids.append {marks first rest : List Token}
    (own : Avoids marks first) (other : Avoids marks rest) : Avoids marks (first ++ rest) := by
  cases first with
  | nil => exact other
  | cons token tokens => exact own

/-- A list begins with its first item. -/
theorem avoids_separated {α : Type} {marks : List Token} {read : α → List Token} {items : List α}
    (nonempty : items ≠ [])
    (each : ∀ item ∈ items, ∀ rest, Avoids marks (read item ++ rest)) (rest : List Token) :
    Avoids marks (separatedTokens (items.map read) ++ rest) := by
  cases items with
  | nil => exact absurd rfl nonempty
  | cons item others =>
      have own := each item List.mem_cons_self
      cases others with
      | nil => exact own rest
      | cons next more =>
          simp only [List.map_cons, separatedTokens, List.append_assoc]
          exact own _

theorem avoids_column {marks : List Token} {column : ColumnRef}
    (plain : ∀ identifier, Token.name identifier ∉ marks) (rest : List Token) :
    Avoids marks (column.tokens ++ rest) := by
  rcases column with ⟨_ | qualifier, field⟩
  · exact Avoids.cons (plain field)
  · exact Avoids.cons (plain qualifier)

theorem avoids_item {marks : List Token} {item : SelectItem}
    (plain : ∀ identifier, Token.name identifier ∉ marks) (rest : List Token) :
    Avoids marks (item.tokens ++ rest) := by
  rcases item with ⟨column, _ | output⟩
  · exact avoids_column plain rest
  · simp only [SelectItem.tokens, List.append_assoc]
    exact avoids_column plain _

theorem projection_parses {projection : Projection} (readable : projection.Readable)
    (enough : projection.tokens.length < bound) :
    Parses (Grammar.projection bound) [.symbol ",", .word "AS"] projection.tokens projection := by
  cases projection with
  | all => exact branch_present (Parses.pure _ _)
  | count output =>
      have named := (name_parses output).mono (List.nil_subset [.symbol ",", .word "AS"])
      refine branch_other (by decide) (branch_present ?_)
      exact named.map.expect_then.expect_then.expect_then.expect_then
  | columns items =>
      have count := length_le_separatedTokens (items.map SelectItem.tokens)
      simp only [List.length_map] at count
      have fits : items.length ≤ bound := by
        simp only [Projection.tokens] at enough
        omega
      have listed : Parses (separated Grammar.item bound) [.symbol ",", .word "AS"]
          (separatedTokens (items.map SelectItem.tokens)) (items.map id) :=
        separated_parses (fun item member => item_parses (readable.2 item member))
          (by decide) (by decide) (by decide) readable.1 fits
      rw [List.map_id] at listed
      have apart (token : Token) (plain : ∀ identifier, Token.name identifier ∉ [token]) :
          ∀ rest, Avoids [.symbol ",", .word "AS"] rest →
            Avoids [token] ((Projection.columns items).tokens ++ rest) :=
        fun rest _ => avoids_separated readable.1 (fun _ _ => avoids_item plain) rest
      refine branch_absent ?_ (apart (.symbol "*") (by simp))
      exact branch_absent listed.map (apart (.word "COUNT") (by simp))

theorem order_parses {keys : List OrderKey} (qualified : ∀ key ∈ keys, key.column.Qualified)
    (enough : (OrderKey.clauseTokens keys).length < bound) :
    Parses (Grammar.order bound) [.symbol ",", .word "ORDER"] (OrderKey.clauseTokens keys) keys := by
  cases keys with
  | nil => exact branch_end (Parses.pure _ _) (by decide)
  | cons key rest =>
      have count := length_le_separatedTokens ((key :: rest).map OrderKey.tokens)
      simp only [List.length_map] at count
      have fits : (key :: rest).length ≤ bound := by
        simp only [OrderKey.clauseTokens, List.length_cons] at enough count ⊢
        omega
      have listed : Parses (separated Grammar.orderKey bound) [.symbol ",", .word "ORDER"]
          (separatedTokens ((key :: rest).map OrderKey.tokens)) ((key :: rest).map id) :=
        separated_parses (fun item member => orderKey_parses (qualified item member))
          (by decide) (by decide) (by decide) (List.cons_ne_nil _ _) fits
      rw [List.map_id] at listed
      exact branch_present listed.expect_then

theorem limit_parses (limit : Limit) :
    Parses Grammar.limit [.symbol ",", .word "LIMIT"] limit.tokens limit.readBack := by
  have skipping (skip count : Nat) :
      Parses Grammar.limit [.symbol ",", .word "LIMIT"]
        [.word "LIMIT", .number (toString skip), .symbol ",", .number (toString count)]
        ⟨some skip, some count⟩ := by
    have counted := (natural_parses count).mono (List.nil_subset [.symbol ",", .word "LIMIT"])
    exact branch_present ((natural_parses skip).andThen (branch_present counted.map))
  rcases limit with ⟨_ | skip, _ | count⟩
  · exact branch_end (Parses.pure _ _) (by decide)
  · refine branch_present ((natural_parses count).andThen (branch_end ?_ (by decide)))
    exact Parses.pure _ _
  · exact skipping skip 0
  · exact skipping skip count

/-! ## Predicates -/

theorem numberText_cases (text : List Char) :
    numberTokens text = [.number (String.ofList text)] ∨
      ∃ numeral, text = '-' :: numeral ∧
        numberTokens text = [.symbol "-", .number (String.ofList numeral)] := by
  unfold numberTokens
  split
  · exact .inr ⟨_, rfl, rfl⟩
  · exact .inl rfl

theorem literal_parses {value : Json} (scalar : value.isScalar) :
    Parses (Grammar.literal numberOf) [] (valueTokens value) (value.readBack numberOf) := by
  cases value with
  | null => exact fun _ _ => rfl
  | bool value => cases value <;> exact fun _ _ => rfl
  | string value => exact fun _ _ => rfl
  | array items => cases scalar
  | object members => cases scalar
  | number value =>
      rw [valueTokens, Json.readBack]
      rcases numberText_cases value.text with plain | ⟨numeral, text, signed⟩
      · intro rest _
        rw [plain]
        show some (Json.number (numberOf (String.ofList value.text).toList), rest) = _
        rw [String.toList_ofList]
      · intro rest _
        rw [signed, text]
        show some (Json.number (numberOf ('-' :: (String.ofList numeral).toList)), rest) = _
        rw [String.toList_ofList]

/-- No scalar looks like the beginning of a query. -/
theorem avoids_value {value : Json} (scalar : value.isScalar) (rest : List Token) :
    Avoids [.word "SELECT"] (valueTokens value ++ rest) := by
  cases value with
  | null => exact Avoids.cons (by decide)
  | bool value => cases value <;> exact Avoids.cons (by decide)
  | string value => exact Avoids.cons (by simp)
  | array items => cases scalar
  | object members => cases scalar
  | number value =>
      rw [valueTokens]
      rcases numberText_cases value.text with plain | ⟨numeral, -, signed⟩
      · rw [plain]
        exact Avoids.cons (by simp)
      · rw [signed]
        exact Avoids.cons (by simp)

theorem operand_parses {expr : Expr} (readable : expr.IsOperand) :
    Parses (Grammar.operand numberOf) [] expr.tokens (expr.readBack numberOf) := by
  cases expr with
  | column column =>
      rcases column with ⟨_ | qualifier, field⟩
      · cases readable
      · have named : ColumnRef.Qualified ⟨some qualifier, field⟩ := rfl
        exact (column_parses named).map
  | literal value =>
      intro rest avoids
      rw [Expr.tokens, operand, literal_parses readable rest avoids]
      rfl
  | _ => cases readable

theorem subject_parses {expr : Expr} (readable : expr.IsSubject)
    (enough : expr.tokens.length < bound) :
    Parses (Grammar.subject bound) [] expr.tokens expr := by
  cases expr with
  | column column =>
      apply branch_absent (column_parses readable).map
      exact fun rest _ => avoids_column (by simp) rest
  | concat columns =>
      have count := length_le_separatedTokens (columns.map ColumnRef.tokens)
      simp only [List.length_map] at count
      have fits : columns.length ≤ bound := by
        simp only [Expr.tokens, List.length_append, List.length_cons] at enough
        omega
      have listed : Parses (separated Grammar.column bound) [.symbol ","]
          (separatedTokens (columns.map ColumnRef.tokens)) (columns.map id) :=
        separated_parses (fun column member => column_parses (readable.2 column member))
          (by decide) (by decide) (by decide) readable.1 fits
      rw [List.map_id] at listed
      refine branch_present (Parses.expect_then ?_)
      exact listed.bind expect_last fun _ _ => Avoids.cons (by decide)
  | _ => cases readable

theorem comparison_parses (comparison : Comparison) :
    Parses Grammar.comparison [] [comparisonToken comparison] comparison := by
  cases comparison <;> exact fun _ _ => rfl

theorem comparisonToken_ne_word (comparison : Comparison) (word : String) :
    comparisonToken comparison ≠ .word word := by
  cases comparison <;> exact nofun

section Relation

variable {subject result right : Expr} {query : Select} {values : List Json}
variable {marks inner : List Token} {negated : Bool}

theorem membership_list (scalars : ∀ value ∈ values, value.isScalar) (nonempty : values ≠ [])
    (enough : values.length ≤ bound) :
    Parses (membership numberOf body bound subject negated) []
      (.symbol "(" :: (separatedTokens (values.map valueTokens) ++ [.symbol ")"]))
      (.inList subject (values.map (Json.readBack numberOf)) negated) := by
  have listed : Parses (separated (Grammar.literal numberOf) bound) [.symbol ","]
      (separatedTokens (values.map valueTokens)) (values.map (Json.readBack numberOf)) :=
    separated_parses (fun value member => literal_parses (scalars value member))
      (by decide) (by decide) (by decide) nonempty enough
  refine Parses.expect_then (branch_absent (listed.bind expect_last ?_) ?_)
  · exact fun _ _ => Avoids.cons (by decide)
  · intro rest _
    rw [List.append_assoc]
    exact avoids_separated nonempty (fun value member => avoids_value (scalars value member)) _

theorem membership_select (own : Parses body marks inner query) (free : .symbol ")" ∉ marks) :
    Parses (membership numberOf body bound subject negated) []
      (.symbol "(" :: .word "SELECT" :: (inner ++ [.symbol ")"]))
      (.inSelect subject query negated) := by
  refine Parses.expect_then (branch_present ?_)
  exact own.bind expect_last fun _ _ => Avoids.cons free

theorem relation_membership
    (own : Parses (membership numberOf body bound subject negated) [] (.symbol "(" :: inner)
      result) :
    Parses (relation numberOf body bound subject) [] (membershipTokens negated ++ inner)
      result := by
  cases negated
  · exact branch_other (by decide) (branch_other (by decide) (branch_present own))
  · refine branch_other (by decide) (branch_other (by decide) (branch_other (by decide) ?_))
    exact branch_present own.expect_then

theorem relation_like (pattern : String) :
    Parses (relation numberOf body bound subject) [] [.word "LIKE", .string pattern]
      (.like subject pattern) :=
  branch_present (string_parses pattern).map

theorem relation_nullCheck (isNull : Bool) :
    Parses (relation numberOf body bound subject) [] (nullCheckTokens isNull)
      (.nullCheck subject isNull) := by
  refine branch_absent ?_ ?_
  · cases isNull
    · exact branch_present (branch_present expect_last)
    · exact branch_present (branch_other (by decide) expect_last)
  · cases isNull <;> exact fun _ _ => Avoids.cons (by decide)

theorem relation_compare (comparison : Comparison) (readable : right.IsOperand) :
    Parses (relation numberOf body bound subject) []
      (comparisonToken comparison :: right.tokens)
      (.compare subject comparison (right.readBack numberOf)) := by
  have other := comparisonToken_ne_word comparison
  refine branch_other (other _) (branch_other (other _) (branch_other (other _) ?_))
  apply branch_other (other _)
  exact (comparison_parses comparison).andThen (operand_parses readable).map

end Relation

end Grammar

end SqlScribe
