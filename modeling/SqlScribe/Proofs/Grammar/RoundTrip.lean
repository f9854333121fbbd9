import SqlScribe.Proofs.Grammar.Readable

/-!
# The round trip

Reading the tokens of a readable SELECT gives it back.  The induction is on the
fuel of the grammar: every level of nesting takes up tokens, so that twice as
much fuel as there are tokens is always enough.
-/

namespace SqlScribe.Grammar

open Lexis

variable {numberOf : List Char → JsonNumber} {fuel : Nat}

/-- The tokens after which a SELECT could be read on. -/
def selectMarks : List Token :=
  [.word "AS", .symbol ",", .word "LEFT", .word "AND", .word "WHERE", .word "ORDER", .word "LIMIT"]

/-- With this much fuel, everything readable with few enough tokens reads back. -/
structure Complete (numberOf : List Char → JsonNumber) (fuel : Nat) : Prop where
  predicate : ∀ {expr : Expr}, expr.Readable → expr.IsPart → 2 * expr.tokens.length < fuel →
    Parses (Grammar.predicate numberOf fuel) [] expr.tokens (expr.readBack numberOf)
  conjuncts : ∀ {part : Expr} {rest : List Expr}, Expr.AllReadable (part :: rest) →
    2 * (part.tokens ++ Expr.furtherTokens rest).length + 1 < fuel →
    Parses (Grammar.conjuncts numberOf fuel) [.word "AND"]
      (part.tokens ++ Expr.furtherTokens rest) (Expr.allReadBack numberOf (part :: rest))
  joins : ∀ {joins : List Join}, Join.AllReadable joins →
    2 * (Join.clauseTokens joins).length + 1 < fuel →
    Parses (Grammar.joins numberOf fuel) [.word "LEFT", .word "AND"] (Join.clauseTokens joins)
      (Join.allReadBack numberOf joins)
  body : ∀ {select : Select}, select.Readable → 2 * select.tokens.tail.length < fuel →
    Parses (Grammar.body numberOf fuel) selectMarks select.tokens.tail (select.readBack numberOf)

/-! ## Conditions -/

theorem readBack_subject {expr : Expr} (readable : expr.IsSubject) :
    expr.readBack numberOf = expr := by
  cases expr with
  | column column => rfl
  | concat columns => rfl
  | _ => cases readable

theorem avoids_subject {marks : List Token} {expr : Expr} (readable : expr.IsSubject)
    (plain : ∀ identifier, Token.name identifier ∉ marks) (joined : .word "CONCAT" ∉ marks)
    (rest : List Token) : Avoids marks (expr.tokens ++ rest) := by
  cases expr with
  | column column => exact avoids_column plain rest
  | concat columns => exact Avoids.cons joined
  | _ => cases readable

/-- A subject and what is said of it form a predicate. -/
theorem predicate_of_relation
    {subject result : Expr} {tokens : List Token}
    (readable : subject.IsSubject) (enough : subject.tokens.length < fuel)
    (own : Parses (relation numberOf (body numberOf fuel) fuel subject) [] tokens result) :
    Parses (predicate numberOf (fuel + 1)) [] (subject.tokens ++ tokens) result := by
  have whole := (subject_parses readable enough).andThen own
  refine branch_absent (branch_absent whole ?_) ?_
  · intro rest _
    rw [List.append_assoc]
    exact avoids_subject readable (by simp) (by decide) _
  · intro rest _
    rw [List.append_assoc]
    exact avoids_subject readable (by simp) (by decide) _

/-- A condition reads as the parts of a conjunction, which make it up again. -/
theorem Complete.condition
    {expr : Expr} (complete : Complete numberOf fuel) (readable : expr.Readable)
    (enough : 2 * expr.tokens.length + 1 < fuel) :
    ∃ parts, Parses (Grammar.conjuncts numberOf fuel) [.word "AND"] expr.tokens parts ∧
      Expr.conjunction parts = expr.readBack numberOf := by
  have single (part : expr.IsPart) :
      ∃ parts, Parses (Grammar.conjuncts numberOf fuel) [.word "AND"] expr.tokens parts ∧
        Expr.conjunction parts = expr.readBack numberOf := by
    have alone : expr.tokens ++ Expr.furtherTokens [] = expr.tokens := List.append_nil _
    have listed : Expr.AllReadable [expr] := ⟨⟨readable, part⟩, trivial⟩
    have whole := complete.conjuncts listed
    rw [alone] at whole
    exact ⟨_, whole enough, rfl⟩
  cases expr with
  | and parts =>
      rcases parts with _ | ⟨first, _ | ⟨second, rest⟩⟩
      · simp [Expr.Readable] at readable
      · simp [Expr.Readable] at readable
      · exact ⟨_, complete.conjuncts readable.2 enough, rfl⟩
  | _ => exact single trivial

theorem tokens_eq_select (select : Select) :
    select.tokens = .word "SELECT" :: select.tokens.tail := by
  cases select
  rfl

theorem Complete.predicate_succ
    {expr : Expr} (complete : Complete numberOf fuel) (readable : expr.Readable)
    (part : expr.IsPart) (enough : 2 * expr.tokens.length < fuel + 1) :
    Parses (Grammar.predicate numberOf (fuel + 1)) [] expr.tokens (expr.readBack numberOf) := by
  cases expr with
  | column | concat | literal => cases readable
  | and parts => cases part
  | compare left comparison right =>
      simp only [Expr.tokens, List.length_append, List.length_cons] at enough
      rw [Expr.readBack, readBack_subject readable.1]
      exact predicate_of_relation readable.1 (by omega) (relation_compare comparison readable.2)
  | like subject pattern =>
      simp only [Expr.tokens, List.length_append, List.length_cons] at enough
      rw [Expr.readBack, readBack_subject readable]
      exact predicate_of_relation readable (by omega) (relation_like pattern)
  | nullCheck subject isNull =>
      have some : 0 < (nullCheckTokens isNull).length := by cases isNull <;> decide
      simp only [Expr.tokens, List.length_append] at enough
      rw [Expr.readBack, readBack_subject readable]
      exact predicate_of_relation readable (by omega) (relation_nullCheck isNull)
  | inList subject values negated =>
      rcases readable with ⟨own, nonempty, scalars⟩
      have count := length_le_separatedTokens (values.map valueTokens)
      have full : ¬ values.isEmpty := by simpa using nonempty
      simp only [List.length_map] at count
      rw [Expr.tokens, if_neg full] at enough ⊢
      simp only [List.length_append, List.length_cons] at enough
      rw [Expr.readBack, readBack_subject own, List.append_assoc, List.append_assoc]
      apply predicate_of_relation own (by omega)
      exact relation_membership (membership_list scalars nonempty (by omega))
  | inSelect subject query negated =>
      rcases readable with ⟨own, inner⟩
      rw [Expr.tokens, tokens_eq_select query] at enough ⊢
      simp only [List.length_append, List.length_cons] at enough
      rw [Expr.readBack, readBack_subject own, List.append_assoc, List.append_assoc]
      apply predicate_of_relation own (by omega)
      exact relation_membership (membership_select (complete.body inner (by omega)) (by decide))
  | group inner =>
      have inside : inner.Readable := readable
      simp only [Expr.tokens, List.length_append, List.length_cons] at enough
      rcases complete.condition inside (by omega) with ⟨parts, reads, same⟩
      rw [Expr.readBack, ← same]
      exact branch_present (reads.bind expect_last fun _ _ => Avoids.cons (by decide))
  | truth => exact branch_other (by decide) (branch_present expect_last.expect_then)

theorem Complete.conjuncts_succ
    {part : Expr} {rest : List Expr} (complete : Complete numberOf fuel)
    (readable : Expr.AllReadable (part :: rest))
    (enough : 2 * (part.tokens ++ Expr.furtherTokens rest).length + 1 < fuel + 1) :
    Parses (Grammar.conjuncts numberOf (fuel + 1)) [.word "AND"]
      (part.tokens ++ Expr.furtherTokens rest) (Expr.allReadBack numberOf (part :: rest)) := by
  rcases readable with ⟨⟨own, alone⟩, others⟩
  simp only [List.length_append] at enough
  have first := complete.predicate own alone (by omega)
  cases rest with
  | nil => exact first.andThen (branch_end (Parses.pure _ _) List.mem_cons_self)
  | cons next more =>
      simp only [Expr.furtherTokens, List.length_append, List.length_cons] at enough
      have tail := complete.conjuncts others (by
        simp only [List.length_append]
        omega)
      exact first.andThen (branch_present tail.map)

/-! ## Queries -/

/-- The WHERE clause, if there is one. -/
def whereTokens : Option Expr → List Token
  | none => []
  | some condition => .word "WHERE" :: condition.tokens

section Avoids

variable {marks : List Token}

theorem avoids_joins (joins : List Join) (free : .word "LEFT" ∉ marks) :
    Avoids marks (Join.clauseTokens joins) := by
  rcases joins with _ | ⟨⟨table, condition⟩, rest⟩
  · exact Avoids.nil
  · exact Avoids.cons free

theorem avoids_where (condition : Option Expr) (free : .word "WHERE" ∉ marks) :
    Avoids marks (whereTokens condition) := by
  cases condition
  · exact Avoids.nil
  · exact Avoids.cons free

theorem avoids_order (keys : List OrderKey) (free : .word "ORDER" ∉ marks) :
    Avoids marks (OrderKey.clauseTokens keys) := by
  cases keys
  · exact Avoids.nil
  · exact Avoids.cons free

theorem avoids_limit (limit : Limit) (free : .word "LIMIT" ∉ marks) :
    Avoids marks limit.tokens := by
  rcases limit with ⟨_ | skip, _ | count⟩
  · exact Avoids.nil
  · exact Avoids.cons free
  · exact Avoids.cons free
  · exact Avoids.cons free

end Avoids

theorem Complete.joins_succ
    {joins : List Join} (complete : Complete numberOf fuel)
    (readable : Join.AllReadable joins)
    (enough : 2 * (Join.clauseTokens joins).length + 1 < fuel + 1) :
    Parses (Grammar.joins numberOf (fuel + 1)) [.word "LEFT", .word "AND"]
      (Join.clauseTokens joins) (Join.allReadBack numberOf joins) := by
  rcases joins with _ | ⟨⟨table, condition⟩, rest⟩
  · exact branch_end (Parses.pure _ _) List.mem_cons_self
  · rcases readable with ⟨own, others⟩
    have spelled : Join.clauseTokens (⟨table, condition⟩ :: rest) =
        .word "LEFT" :: .word "OUTER" :: .word "JOIN" ::
          (table.tokens ++ .word "ON" :: (condition.tokens ++ Join.clauseTokens rest)) := by
      simp [Join.clauseTokens, Join.tokens]
    rw [spelled] at enough ⊢
    simp only [List.length_append, List.length_cons] at enough
    rcases complete.condition own (by omega) with ⟨parts, reads, same⟩
    have tail := complete.joins others (by omega)
    rw [Join.allReadBack, ← same]
    refine branch_present (Parses.expect_then (Parses.expect_then ?_))
    refine (table_parses table).bind (Parses.expect_then ?_) fun _ _ => Avoids.cons (by decide)
    apply reads.bind tail.map
    intro following avoids
    exact (avoids_joins rest (by decide)).append (avoids.mono (by decide))

/-- A condition after WHERE, or none. -/
theorem Complete.whereClause
    {condition : Option Expr} (complete : Complete numberOf fuel)
    (readable : ∀ expr ∈ condition, expr.Readable)
    (enough : 2 * (whereTokens condition).length < fuel) :
    Parses
      (branch (.word "WHERE")
        (do
          let parts ← Grammar.conjuncts numberOf fuel
          pure (some (Expr.conjunction parts)))
        (pure none))
      [.word "AND", .word "WHERE"] (whereTokens condition)
      (condition.map (Expr.readBack numberOf)) := by
  cases condition with
  | none => exact branch_end (Parses.pure _ _) (by decide)
  | some condition =>
      simp only [whereTokens, List.length_cons] at enough
      rcases complete.condition (readable condition rfl) (by omega) with ⟨parts, reads, same⟩
      rw [Option.map_some, ← same]
      exact branch_present (reads.mono (by decide)).map

theorem Complete.body_succ
    {select : Select} (complete : Complete numberOf fuel) (readable : select.Readable)
    (enough : 2 * select.tokens.tail.length < fuel + 1) :
    Parses (Grammar.body numberOf (fuel + 1)) selectMarks select.tokens.tail
      (select.readBack numberOf) := by
  rcases select with ⟨projection, source, joins, condition, order, limit⟩
  simp only [Select.readable_iff] at readable
  rcases readable with ⟨projected, joinable, conditioned, sorted⟩
  have spelled : (Select.tokens ⟨projection, source, joins, condition, order, limit⟩).tail =
      projection.tokens ++ .word "FROM" :: (source.tokens ++ (Join.clauseTokens joins ++
        (whereTokens condition ++ (OrderKey.clauseTokens order ++ limit.tokens)))) := by
    cases condition <;> simp [Select.tokens, whereTokens]
  have restored : Select.readBack numberOf ⟨projection, source, joins, condition, order, limit⟩ =
      ⟨projection, source, Join.allReadBack numberOf joins, condition.map (Expr.readBack numberOf),
        order, limit.readBack⟩ := by
    cases condition <;> rfl
  rw [spelled] at enough ⊢
  rw [restored]
  simp only [List.length_append, List.length_cons] at enough
  have joined := complete.joins joinable (by omega)
  have filtered := complete.whereClause conditioned (by omega)
  have limited : Parses Grammar.limit selectMarks limit.tokens limit.readBack :=
    (limit_parses limit).mono (by decide)
  refine (projection_parses projected (by omega)).bind (Parses.expect_then ?_) fun _ _ =>
    Avoids.cons (by decide)
  refine (table_parses source).bind ?_ fun _ avoids =>
    ((avoids_joins joins (by decide)).append ((avoids_where condition (by decide)).append
      ((avoids_order order (by decide)).append (avoids_limit limit (by decide))))).append
        (avoids.mono (by decide))
  refine joined.bind ?_ fun _ avoids =>
    ((avoids_where condition (by decide)).append ((avoids_order order (by decide)).append
      (avoids_limit limit (by decide)))).append (avoids.mono (by decide))
  refine filtered.bind ?_ fun _ avoids =>
    ((avoids_order order (by decide)).append (avoids_limit limit (by decide))).append
      (avoids.mono (by decide))
  refine (order_parses sorted (by omega)).bind ?_ fun _ avoids =>
    (avoids_limit limit (by decide)).append (avoids.mono (by decide))
  exact limited.map

theorem complete (numberOf : List Char → JsonNumber) (fuel : Nat) : Complete numberOf fuel := by
  induction fuel with
  | zero =>
      constructor
      · exact fun _ _ enough => absurd enough (Nat.not_lt_zero _)
      · exact fun _ enough => absurd enough (Nat.not_lt_zero _)
      · exact fun _ enough => absurd enough (Nat.not_lt_zero _)
      · exact fun _ enough => absurd enough (Nat.not_lt_zero _)
  | succ fuel step =>
      constructor
      · exact step.predicate_succ
      · exact step.conjuncts_succ
      · exact step.joins_succ
      · exact step.body_succ

/-- A text with the tokens of a readable SELECT gives it back. -/
theorem parse_of_lex
    {sql : String} {select : Select} (readable : select.Readable)
    (read : lex sql = .ok select.tokens) :
    parse numberOf sql = some (select.readBack numberOf) := by
  have whole := (complete numberOf (2 * select.tokens.tail.length + 1)).body readable
    (Nat.lt_succ_self _) [] Avoids.nil
  rw [List.append_nil] at whole
  rw [tokens_eq_select] at read
  rw [parse, read]
  simp only [whole]

end SqlScribe.Grammar
