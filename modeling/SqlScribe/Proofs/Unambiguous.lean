import Mathlib
import SqlScribe.Proofs.Grammar.RoundTrip
import SqlScribe.Proofs.Lexis.Statement

/-!
# The text of a query determines its SELECT

If all values in the constraints of a query are scalars, then the SELECT that it
compiles into is readable: its text can be read back, so that queries with the
same text have the same SELECT.  Two SELECTs count as the same here if they
differ in nothing but numbers with one printed form, and in a missing count of
a LIMIT clause against the count zero.
-/

namespace SqlScribe

open Checked Lexis

/-! ## Queries over scalars -/

/-- The values of the constraint are scalars, and so are those of a query inside it. -/
inductive Constraint.HasScalars : Constraint → Prop
  | compare {comparison : Comparison} {value : Json} (scalar : value.isScalar) :
      HasScalars (.compare comparison value)
  | matching {affix : Affix} {text : String} : HasScalars (.matching affix text)
  | present {expected : Bool} : HasScalars (.present expected)
  | inList {negated : Bool} {values : List Json} (scalars : ∀ value ∈ values, value.isScalar) :
      HasScalars (.inList negated values)
  | inQuery {negated : Bool} {query : Subquery}
      (inner : ∀ constraint ∈ query.constraints, HasScalars constraint) :
      HasScalars (.inQuery negated query)

def Query.HasScalars (query : Query) : Prop :=
  ∀ constraint ∈ query.constraints, constraint.HasScalars

/-! ## Compiled queries are readable -/

variable {config : Config} {depth : Nat} {names : Names} {owner : String}

theorem Names.qualified_of_resolveIn {path : String} {column : ColumnRef}
    (resolved : names.resolveIn owner path = .ok column) : column.Qualified := by
  rcases resolveIn_eq_ok.1 resolved with ⟨_, -, -, rfl⟩
  rfl

theorem Expr.allReadable_iff {parts : List Expr} :
    Expr.AllReadable parts ↔ ∀ part ∈ parts, part.Readable ∧ part.IsPart := by
  induction parts with
  | nil => simp [AllReadable]
  | cons part rest step => simp [AllReadable, step]

theorem Join.allReadable_iff {joins : List Join} :
    Join.AllReadable joins ↔ ∀ join ∈ joins, join.condition.Readable := by
  induction joins with
  | nil => simp [AllReadable]
  | cons join rest step =>
      cases join
      simp [AllReadable, step]

/-- A single part stands for itself, and several ones form a conjunction. -/
theorem Expr.readable_conjunction {parts : List Expr} (nonempty : parts ≠ [])
    (each : ∀ part ∈ parts, part.Readable ∧ part.IsPart) : (Expr.conjunction parts).Readable := by
  rcases parts with _ | ⟨first, _ | ⟨second, rest⟩⟩
  · exact absurd rfl nonempty
  · exact (each first List.mem_cons_self).1
  · exact ⟨by simp, Expr.allReadable_iff.2 each⟩

theorem readable_fieldParts {group : List Expr}
    (each : ∀ part ∈ group, part.Readable ∧ part.IsPart) :
    ∀ part ∈ fieldParts group, part.Readable ∧ part.IsPart := by
  rcases group with _ | ⟨first, _ | ⟨second, rest⟩⟩
  · exact each
  · exact each
  · intro part member
    rw [List.mem_singleton.1 member]
    exact ⟨⟨by simp, Expr.allReadable_iff.2 each⟩, trivial⟩

/-- The property of constraints that the induction carries. -/
def Constraint.ReadableIn : ConstraintRelation :=
  fun _ _ _ _ constraint expr => constraint.HasScalars → expr.Readable ∧ expr.IsPart

theorem ConditionsCompiled.readable
    {entries : List FieldConstraints} {groups : List (List Expr)}
    (compiled : ConditionsCompiled Constraint.ReadableIn depth names owner entries groups)
    (scalars : ∀ constraint ∈ entries.flatMap FieldConstraints.constraints,
      constraint.HasScalars) :
    ∀ part ∈ groups.flatMap fieldParts, part.Readable ∧ part.IsPart := by
  intro part member
  rcases List.mem_flatMap.1 member with ⟨group, present, inside⟩
  refine readable_fieldParts (fun expr own => ?_) part inside
  rcases compiled.mem group present expr own with ⟨entry, written, constraint, listed, readable⟩
  exact readable (scalars constraint (List.mem_flatMap.2 ⟨entry, written, listed⟩))

theorem JoinSpec.Compiled.readable
    {earlier : List String} {join : JoinSpec} {node : Join}
    (compiled : join.Compiled config Constraint.ReadableIn depth names earlier node)
    (scalars : ∀ constraint ∈ join.constraints, constraint.HasScalars) :
    node.condition.Readable := by
  rcases compiled.condition with ⟨_, _, -, -, -, -, -, condition⟩ | constrained
  · rw [condition]
    exact ⟨rfl, rfl⟩
  · rcases constrained with ⟨groups, -, -, -, condition, inner⟩
    have parts := inner.readable scalars
    rw [condition]
    show (if (groups.flatMap fieldParts).isEmpty then Expr.truth
      else Expr.conjunction (groups.flatMap fieldParts)).Readable
    split
    · trivial
    · rename_i some
      exact Expr.readable_conjunction (by simpa using some) parts

theorem Query.Compiled.readable
    {enclosing : List String} {query : Query} {select : Select}
    (compiled : query.Compiled config Constraint.ReadableIn depth enclosing select)
    (scalars : query.HasScalars) : select.Readable := by
  refine Select.readable_iff.2 ⟨?_, Join.allReadable_iff.2 ?_, ?_, ?_⟩
  · rcases projection_of_frame compiled.projection with ⟨-, all⟩ | ⟨items, given, listed, each⟩
    · rw [all]
      trivial
    · rw [listed]
      constructor
      · rintro rfl
        exact given (List.forall₂_nil_right_iff.1 each)
      · intro item member
        rcases exists_of_forall₂ each item member with ⟨_, -, resolved, -⟩
        exact Names.qualified_of_resolveIn resolved
  · intro node member
    rcases exists_of_forall₂ compiled.joins node member with ⟨entry, written, joined⟩
    have declared := (JoinSpec.mem_withEarlier written).1
    refine joined.readable fun constraint inside => scalars constraint ?_
    exact List.mem_append_right _ (List.mem_flatMap.2 ⟨_, declared, inside⟩)
  · rcases compiled.condition with ⟨groups, condition, inner⟩
    have parts := inner.readable fun constraint inside =>
      scalars constraint (List.mem_append_left _ inside)
    rw [condition, whereClause]
    intro expr member
    split at member
    · cases member
    · rename_i some
      cases member
      exact Expr.readable_conjunction (by simpa using some) parts
  · intro key member
    rcases exists_of_forall₂ (order_of_frame compiled.order) key member with ⟨_, -, resolved, -⟩
    exact Names.qualified_of_resolveIn resolved

theorem Constraint.readableIn_cases (config : Config) :
    CompileCases config Constraint.ReadableIn
      fun _ _ query select => query.HasScalars → select.Readable where
  compare resolved := by
    intro scalars
    cases scalars with
    | compare scalar => exact ⟨⟨Names.qualified_of_resolveIn resolved, scalar⟩, trivial⟩
  matching resolved _ := by
    refine ⟨?_, trivial⟩
    rcases patternSubject_eq_ok resolved with ⟨column, read, rfl⟩ | ⟨-, columns, parts, rfl⟩
    · exact Names.qualified_of_resolveIn read
    · constructor
      · rintro rfl
        exact Text.splitAt_ne_nil _ _ (List.forall₂_nil_right_iff.1 parts)
      · intro column member
        rcases exists_of_forall₂ parts column member with ⟨_, -, read⟩
        exact Names.qualified_of_resolveIn read
  present resolved _ := ⟨Names.qualified_of_resolveIn resolved, trivial⟩
  inList := by
    intro _ _ _ _ _ values _ resolved listed
    cases listed with
    | inList scalars =>
        unfold Expr.inListOrTruth
        split
        · exact ⟨trivial, trivial⟩
        · rename_i some
          have nonempty : values ≠ [] := by simpa using some
          exact ⟨⟨Names.qualified_of_resolveIn resolved, nonempty, scalars⟩, trivial⟩
  inQuery := by
    intro _ _ _ _ _ subquery _ implied _ resolved _ inner nested
    cases nested with
    | inQuery scalars =>
        have within : (subquery.asQuery config implied).HasScalars := by
          rw [Query.HasScalars, Subquery.constraints_asQuery]
          exact scalars
        exact ⟨⟨Names.qualified_of_resolveIn resolved, inner within⟩, trivial⟩
  query compiled := compiled.readable

theorem Query.readable_of_statement {query : Query} {select : Select}
    (compiled : (query.statement config).1 = .ok select) (scalars : query.HasScalars) :
    select.Readable :=
  (Constraint.readableIn_cases config).statement compiled scalars

/-! ## What the text determines -/

/-- What is read back of the one is read back of the other, however numbers are read. -/
def Select.Alike (first second : Select) : Prop :=
  ∀ numberOf, first.readBack numberOf = second.readBack numberOf

/-- Alike values are the same, or numbers with the same text. -/
theorem Json.alike_iff {first second : Json} :
    (∀ numberOf, first.readBack numberOf = second.readBack numberOf) ↔
      first = second ∨
        ∃ left right, first = .number left ∧ second = .number right ∧ left.text = right.text := by
  constructor
  · intro alike
    have plain := alike fun _ => .integer 0
    cases first with
    | number left =>
        cases second with
        | number right =>
            have same := alike fun text => if text = left.text then .integer 1 else .integer 0
            simp only [readBack, number.injEq, if_true] at same
            split at same
            · rename_i text
              exact .inr ⟨left, right, rfl, rfl, text.symm⟩
            · cases same
        | _ => cases plain
    | _ =>
        cases second with
        | number right => cases plain
        | _ => exact .inl plain
  · rintro (rfl | ⟨left, right, rfl, rfl, text⟩) numberOf
    · rfl
    · rw [readBack, readBack, text]

/-- Limits read back alike are the same, or lack a count where the other one has zero. -/
theorem Limit.alike_iff {first second : Limit} :
    first.readBack = second.readBack ↔
      first = second ∨
        first.skip.isSome ∧ first.skip = second.skip ∧
          first.count.getD 0 = 0 ∧ second.count.getD 0 = 0 := by
  rcases first with ⟨_ | skip, _ | count⟩ <;> rcases second with ⟨_ | other, _ | total⟩ <;>
    simp [readBack, eq_comm]
  omega

theorem Query.toSql_find {query : Query} {select : Select} {sql : String}
    (compiled : (query.statement config).1 = .ok select)
    (written : (Statement.select select).toSql = .ok sql) :
    (query.toSql config .find).1 = .ok sql := by
  rw [Query.toSql_eq, compiled]
  exact written

/-- A query over scalars that compiles has a text, and the text can be read back. -/
theorem Query.find_reads_back {query : Query} {select : Select}
    (compiled : (query.statement config).1 = .ok select) (scalars : query.HasScalars) :
    ∃ sql, (query.toSql config .find).1 = .ok sql ∧
      ∀ numberOf, Grammar.parse numberOf sql = some (select.readBack numberOf) := by
  have named : (Statement.select select).Named Quotable :=
    Query.named_of_statement quotable_admitted compiled
  have readable := Query.readable_of_statement compiled scalars
  rcases Statement.toSql_eq_ok named with ⟨sql, written, tokens⟩
  exact ⟨sql, Query.toSql_find compiled written, fun _ => Grammar.parse_of_lex readable tokens⟩

/--
The text of a query over scalars can be read back, and every other such query
with this text has the same SELECT.
-/
theorem find_text_determines_select
    {config : Config} {query : Query} {select : Select}
    (compiled : (query.statement config).1 = .ok select) (scalars : query.HasScalars) :
    ∃ sql, (query.toSql config .find).1 = .ok sql ∧
      (∀ numberOf, Grammar.parse numberOf sql = some (select.readBack numberOf)) ∧
      ∀ {otherConfig : Config} {other : Query} {otherSelect : Select},
        (other.statement otherConfig).1 = .ok otherSelect → other.HasScalars →
        (other.toSql otherConfig .find).1 = .ok sql → select.Alike otherSelect := by
  rcases Query.find_reads_back compiled scalars with ⟨sql, written, back⟩
  refine ⟨sql, written, back, ?_⟩
  intro otherConfig other otherSelect otherCompiled otherScalars same numberOf
  rcases Query.find_reads_back otherCompiled otherScalars with ⟨_, text, otherBack⟩
  rw [same] at text
  cases text
  exact Option.some.inj ((back numberOf).symm.trans (otherBack numberOf))

/-- Reports of one author and of some teams, without the first ones. -/
def laterReports : Query :=
  { table := "reports"
    joins := [⟨"users", "author", none, some ⟨[⟨"id", [.compare .equal (.integer 7)]⟩]⟩, none⟩]
    conditions :=
      ⟨[⟨"state", [.inList false [.string "open", .null], .present true]⟩,
        ⟨"team", [.inQuery false ⟨"teams", "id", ⟨[]⟩, [], some 2, none⟩]⟩]⟩
    skip := some 5 }

def laterReportsSelect : Select :=
  ⟨.all, ⟨"reports", none⟩,
    [⟨⟨"users", some "author"⟩,
      .group (.compare (.column ⟨some "author", "id"⟩) .equal (.literal (.integer 7)))⟩],
    some (.and
      [.group (.and
        [.inList (.column ⟨some "reports", "state"⟩) [.string "open", .null] false,
          .nullCheck (.column ⟨some "reports", "state"⟩) false]),
        .inSelect (.column ⟨some "reports", "team"⟩)
          ⟨.columns [⟨⟨some "sq1_0", "id"⟩, none⟩], ⟨"teams", some "sq1_0"⟩, [], none, [],
            ⟨some 2, none⟩⟩
          false]),
    [], ⟨some 5, none⟩⟩

theorem find_text_determines_select_laterReports :
    (laterReports.statement {}).1 = .ok laterReportsSelect ∧ laterReports.HasScalars ∧
      ∃ sql, (laterReports.toSql {} .find).1 = .ok sql ∧
        ∀ numberOf, Grammar.parse numberOf sql = some (laterReportsSelect.readBack numberOf) := by
  have compiled : (laterReports.statement {}).1 = .ok laterReportsSelect := by cbv
  have scalars : laterReports.HasScalars := by
    intro constraint member
    simp [laterReports, Query.constraints, JoinSpec.constraints, JoinSpec.entries] at member
    rcases member with rfl | rfl | rfl | rfl
    · exact .inList (by decide)
    · exact .present
    · exact .inQuery (by simp [Subquery.constraints])
    · exact .compare rfl
  rcases find_text_determines_select compiled scalars with ⟨sql, written, back, -⟩
  exact ⟨compiled, scalars, sql, written, back⟩

end SqlScribe
