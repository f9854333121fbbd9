import Mathlib.Algebra.GroupWithZero.Nat
import SqlScribe.Document.Query
import SqlScribe.Proofs.Compile.Predicate
import SqlScribe.Proofs.Document.Constraint
import SqlScribe.Proofs.Injection

/-!
# Memberships in lists

A test for membership in a list takes any items that the document holds, arrays
among them, and the literal of an array is the list of its items' literals.  An
array inside the list is therefore no item of its own: it adds as many literals
as it has items, and an empty one adds nothing at all.

The condition in the text is a list with one literal for each item exactly if
every item is *single*: no array, or an array of one single item.  Comparisons
refuse arrays, but lists do not look at their items.
-/

namespace SqlScribe

open Checked Compile Lexis

/-! ## Single values -/

mutual

/-- Whether a value is written as one literal. -/
def Json.isSingle : Json → Bool
  | .array items => areSingle items
  | _ => true

/-- Whether there is one value only, and that is written as one literal. -/
def Json.areSingle : List Json → Bool
  | [value] => value.isSingle
  | _ => false

end

namespace Lexis

/-- The tokens of one literal. -/
inductive IsLiteral : List Token → Prop
  | word {text : String} (known : text ∈ ["NULL", "true", "false"]) : IsLiteral [.word text]
  | string (text : String) : IsLiteral [.string text]
  | number (text : String) : IsLiteral [.number text]
  | negative (text : String) : IsLiteral [.symbol "-", .number text]

/-- The token between the items of a list. -/
abbrev comma : Token := .symbol ","

theorem IsLiteral.comma_free {tokens : List Token} (literal : IsLiteral tokens) :
    comma ∉ tokens := by
  cases literal <;> simp [comma]

theorem isLiteral_number (text : List Char) : IsLiteral (numberTokens text) := by
  unfold numberTokens
  split
  · exact .negative _
  · exact .number _

mutual

theorem isLiteral_value : ∀ {value : Json}, value.isSingle → IsLiteral (valueTokens value)
  | .null, _ => .word (by decide)
  | .bool true, _ => .word (by decide)
  | .bool false, _ => .word (by decide)
  | .number value, _ => isLiteral_number value.text
  | .string value, _ => .string value
  | .object _, _ => .string _
  | .array _, single => isLiteral_items single

theorem isLiteral_items : ∀ {items : List Json}, Json.areSingle items → IsLiteral (itemTokens items)
  | [_], single => isLiteral_value single

end

mutual

theorem isSingle_of_isLiteral : ∀ {value : Json}, IsLiteral (valueTokens value) → value.isSingle
  | .null, _ | .bool _, _ | .number _, _ | .string _, _ | .object _, _ => rfl
  | .array _, literal => areSingle_of_isLiteral literal

theorem areSingle_of_isLiteral :
    ∀ {items : List Json}, IsLiteral (itemTokens items) → Json.areSingle items
  | [], literal => nomatch literal
  | [_], literal => isSingle_of_isLiteral literal
  | _ :: _ :: _, literal => by
      have separated := literal.comma_free
      simp [itemTokens] at separated

end

/-- A value is one literal exactly if it is single. -/
theorem isLiteral_iff {value : Json} : IsLiteral (valueTokens value) ↔ value.isSingle :=
  ⟨isSingle_of_isLiteral, isLiteral_value⟩

/-! ## Lists with commas -/

/-- Between the items stand as many commas as there are items, less one. -/
theorem count_separatedTokens (items : List (List Token)) :
    (separatedTokens items).count comma =
      (items.map (List.count comma)).sum + (items.length - 1) := by
  induction items with
  | nil => rfl
  | cons item rest step =>
      cases rest with
      | nil => simp [separatedTokens]
      | cons next others =>
          simp only [separatedTokens, List.count_append, List.count_cons_self, step, List.map_cons,
            List.sum_cons, List.length_cons]
          omega

/-- A list with as few commas as possible has none in its items. -/
theorem comma_free_iff {items : List (List Token)} :
    (∀ item ∈ items, comma ∉ item) ↔ (separatedTokens items).count comma = items.length - 1 := by
  rw [count_separatedTokens, Nat.add_eq_right, List.sum_eq_zero_iff_forall_eq_nat,
    List.forall_mem_map]
  simp only [List.count_eq_zero]

theorem append_comma_inj {front other : List Token} {back rest : List Token}
    (free : comma ∉ front) (otherFree : comma ∉ other)
    (same : front ++ comma :: back = other ++ comma :: rest) : front = other ∧ back = rest := by
  rcases List.append_eq_append_iff.1 same with ⟨between, rfl, tail⟩ | ⟨between, rfl, tail⟩
  · cases between with
    | nil => exact ⟨(List.append_nil _).symm, List.tail_eq_of_cons_eq tail⟩
    | cons token more =>
        cases List.head_eq_of_cons_eq tail
        simp at otherFree
  · cases between with
    | nil => exact ⟨List.append_nil _, (List.tail_eq_of_cons_eq tail).symm⟩
    | cons token more =>
        cases List.head_eq_of_cons_eq tail
        simp at free

/-- The commas between items without commas tell the items apart. -/
theorem separatedTokens_inj {items others : List (List Token)}
    (free : ∀ item ∈ items, comma ∉ item) (otherFree : ∀ other ∈ others, comma ∉ other)
    (lengths : items.length = others.length)
    (same : separatedTokens items = separatedTokens others) : items = others := by
  induction items generalizing others with
  | nil => exact (List.eq_nil_of_length_eq_zero lengths.symm).symm
  | cons item rest step =>
      rcases others with _ | ⟨other, remaining⟩
      · cases lengths
      rcases List.forall_mem_cons.1 free with ⟨own, later⟩
      rcases List.forall_mem_cons.1 otherFree with ⟨otherOwn, otherLater⟩
      have shorter : rest.length = remaining.length := Nat.succ.inj lengths
      rcases rest with _ | ⟨next, rest⟩ <;> rcases remaining with _ | ⟨following, remaining⟩
      · exact congrArg (fun item => [item]) same
      · cases shorter
      · cases shorter
      · rcases append_comma_inj own otherOwn same with ⟨rfl, tail⟩
        rw [step later otherLater shorter tail]

/-- A list that reads as so many items without commas is the list of these items. -/
theorem eq_of_separatedTokens {written items : List (List Token)}
    (free : ∀ item ∈ items, comma ∉ item) (lengths : written.length = items.length)
    (same : separatedTokens written = separatedTokens items) : written = items := by
  have ownFree : ∀ tokens ∈ written, comma ∉ tokens := by
    rw [comma_free_iff, same, lengths]
    exact comma_free_iff.1 free
  exact separatedTokens_inj ownFree free lengths same

/-- A list of values reads as a list of as many literals exactly if each value is one literal. -/
theorem literals_iff {values : List Json} :
    (∃ items, items.length = values.length ∧ (∀ item ∈ items, IsLiteral item) ∧
        separatedTokens (values.map valueTokens) = separatedTokens items) ↔
      ∀ value ∈ values, value.isSingle := by
  constructor
  · rintro ⟨items, lengths, literals, same⟩
    have lengths : (values.map valueTokens).length = items.length := by
      rw [List.length_map, lengths]
    have equal := eq_of_separatedTokens
      (fun item member => (literals item member).comma_free) lengths same
    intro value member
    exact isLiteral_iff.1 (literals _ (equal ▸ List.mem_map_of_mem member))
  · intro single
    refine ⟨values.map valueTokens, List.length_map _, ?_, rfl⟩
    exact List.forall_mem_map.2 fun value member => isLiteral_iff.2 (single value member)

/-- A condition that is always true, or a membership of the subject in a list of so many literals. -/
def IsMembership
    (subject : List Token) (negated : Bool) (count : Nat) (tokens : List Token) : Prop :=
  tokens = truthTokens ∨
    ∃ items, items.length = count ∧ (∀ item ∈ items, IsLiteral item) ∧
      tokens = subject ++ (membershipTokens negated ++ separatedTokens items) ++ [.symbol ")"]

end Lexis

/-! ## Conditions -/

/-- A resolved column begins with its qualifier, and so does what is said of it. -/
theorem ColumnRef.tokens_append_ne_truth {names : Names} {owner field : String} {column : ColumnRef}
    (resolved : names.resolveIn owner field = .ok column) (rest : List Token) :
    column.tokens ++ rest ≠ truthTokens := by
  rcases Names.resolveIn_eq_ok.1 resolved with ⟨path, -, -, rfl⟩
  intro same
  cases List.head_eq_of_cons_eq same

/-- The condition on a column is a membership exactly if each item is one literal. -/
theorem isMembership_iff {names : Names} {owner field : String} {column : ColumnRef}
    (resolved : names.resolveIn owner field = .ok column) {negated : Bool} {values : List Json} :
    IsMembership column.tokens negated values.length
        (Expr.inListOrTruth (.column column) values negated).tokens ↔
      ∀ value ∈ values, value.isSingle := by
  cases values with
  | nil => exact iff_of_true (.inl rfl) nofun
  | cons value rest =>
      have listed : (Expr.inListOrTruth (.column column) (value :: rest) negated).tokens =
          column.tokens ++ (membershipTokens negated ++
            separatedTokens ((value :: rest).map valueTokens)) ++ [.symbol ")"] := rfl
      rw [← literals_iff, listed, IsMembership, or_iff_right]
      · simp only [List.append_cancel_right_eq, List.append_cancel_left_eq]
      · rw [List.append_assoc]
        exact ColumnRef.tokens_append_ne_truth resolved _

/-! ## Constraints -/

section

variable {config : Config} {depth : Nat} {names : Names} {owner field : String}
variable {before after : CompileState}

/-- A membership that was read from a document is a list, whatever its items are. -/
theorem Document.inList_of_constraint
    {token : String} {negated : Bool} {value : Json} {constraint : Constraint}
    (listed : (token, negated) ∈ Document.listTokens)
    (accepted : Document.constraint field token value = .ok constraint) :
    ∃ values, value = .array values ∧ constraint = .inList negated values := by
  rw [Document.mem_listTokens.1 listed] at accepted
  rcases Document.constraint_token_eq_ok.1 accepted with ⟨operator, operand⟩
  cases constraint <;> cases operator
  exact ⟨_, operand, rfl⟩

/--
The text of a membership in a list is well formed exactly if each item of the
list is one literal, which an array with no item or with several ones is not.
-/
theorem membership_well_formed_iff
    {token : String} {negated : Bool} {value : Json} {constraint : Constraint} {expr : Expr}
    (named : Quotable owner) (listed : (token, negated) ∈ Document.listTokens)
    (accepted : Document.constraint field token value = .ok constraint)
    (compiled : Yields (constraintExpr config depth names owner field constraint)
      before expr after) :
    ∃ values column text tokens, value = .array values ∧
      names.resolveIn owner field = .ok column ∧
      Fragment.texts expr.fragments = .ok text ∧ lex (String.ofList text) = .ok tokens ∧
      (IsMembership column.tokens negated values.length tokens ↔
        ∀ item ∈ values, item.isSingle) := by
  rcases Document.inList_of_constraint listed accepted with ⟨values, rfl, rfl⟩
  have plain : (Constraint.inList negated values).Plain := fun _ _ => Constraint.noConfusion
  rcases (Constraint.yields_of_plain plain).1 compiled with ⟨subject, resolved, rfl, -⟩
  rcases patternSubject_eq_ok resolved with ⟨column, read, rfl⟩ | ⟨inside, -⟩
  · have quotable : (Expr.column column).Named Quotable :=
      Names.named_of_resolveIn quotable_admitted.toAdmitsIdentifiers named read
    rcases (Expr.spelled _ (Expr.named_inListOrTruth quotable)).lex with ⟨text, written, lexed⟩
    exact ⟨values, column, text, _, rfl, read, written, lexed, isMembership_iff read⟩
  · cases inside

end

/-- Items that are one literal each, one of them inside an array of its own. -/
def threeItems : List Json := [.integer (-1), .array [.string "a"], .null]

theorem membership_well_formed_iff_threeItems :
    Document.constraint "f" "nin" (.array threeItems) = .ok (.inList true threeItems) ∧
      ∃ expr text tokens,
        Yields (constraintExpr {} 0 ⟨"t", [], []⟩ "t" "f" (.inList true threeItems))
          ⟨.empty, []⟩ expr ⟨.empty, []⟩ ∧
        Fragment.texts expr.fragments = .ok text ∧ lex (String.ofList text) = .ok tokens ∧
        IsMembership (ColumnRef.tokens ⟨some "t", "f"⟩) true 3 tokens := by
  have named : Quotable "t" := IsIdentifier.quotable rfl
  have listed : ("nin", true) ∈ Document.listTokens := by simp [Document.listTokens]
  have accepted : Document.constraint "f" "nin" (.array threeItems) =
      .ok (.inList true threeItems) := rfl
  have compiled : Yields (constraintExpr {} 0 ⟨"t", [], []⟩ "t" "f" (.inList true threeItems))
      ⟨.empty, []⟩ (.inList (.column ⟨some "t", "f"⟩) threeItems true) ⟨.empty, []⟩ := rfl
  have single : ∀ item ∈ threeItems, item.isSingle := by decide
  rcases membership_well_formed_iff named listed accepted compiled with
    ⟨values, column, text, tokens, same, resolved, written, read, wellFormed⟩
  cases same
  cases resolved
  exact ⟨accepted, _, text, tokens, compiled, written, read, wellFormed.2 single⟩

/-- A query for the rows whose field is in a list with a list without items as its only item. -/
def emptyItem : Json :=
  .object
    [("table", .string "t"),
      ("where", .object [("f", .object [("in", .array [.array []])])])]

def emptyItemText : String := "SELECT * FROM \x60t\x60 WHERE \x60t\x60.\x60f\x60 IN ()"

/-- The tokens of a membership in nothing. -/
def nothingTokens : List Token :=
  [.name "t", .symbol ".", .name "f", .word "IN", .symbol "(", .symbol ")"]

/-- The condition of an accepted query can be a membership in nothing, which no item justifies. -/
theorem membership_malformed_emptyItem :
    ∃ query tokens, Document.query emptyItem = .ok query ∧
      (Request.read query .find).toSql {} = .ok emptyItemText ∧
      lex emptyItemText = .ok (tokens ++ nothingTokens) ∧
      ¬ IsMembership (ColumnRef.tokens ⟨some "t", "f"⟩) false 1 nothingTokens := by
  have resolved : Names.resolveIn ⟨"t", [], []⟩ "t" "f" = .ok ⟨some "t", "f"⟩ := rfl
  have front : lex emptyItemText =
      .ok ([.word "SELECT", .symbol "*", .word "FROM", .name "t", .word "WHERE"] ++
        nothingTokens) := rfl
  refine ⟨_, _, rfl, rfl, front, fun membership => ?_⟩
  have single : ∀ item ∈ [Json.array []], item.isSingle :=
    (isMembership_iff resolved).1 membership
  cases single (.array []) List.mem_cons_self

end SqlScribe
