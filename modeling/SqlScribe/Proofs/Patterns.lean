import Mathlib
import SqlScribe.Document.Query
import SqlScribe.Proofs.Lexis.Literal
import SqlScribe.Proofs.Nesting

/-!
# What patterns find

LIKE reads its pattern in a language of its own: a percent sign stands for any
run of characters, an underscore for any one character, and a backslash makes
the next character stand for itself.  Characters are compared exactly.

A constraint puts its text into a pattern as it is, between percent signs.  It
finds the text at its place, and nothing else, exactly if no character of the
text says something of its own there: `Affix.IsLiteral`.  Otherwise it also
finds a text that is not longer and does not hold the given one.
-/

namespace SqlScribe

open Checked Compile Lexis

/-! ## Patterns -/

/-- One item of a pattern. -/
inductive PatternItem where
  | exactly (c : Char)
  | anyCharacter
  | anyRun
deriving DecidableEq, Repr

namespace PatternItem

/-- What a character means that no backslash precedes. -/
def ofChar : Char → PatternItem
  | '%' => .anyRun
  | '_' => .anyCharacter
  | c => .exactly c

theorem ofChar_of_plain {c : Char} (run : c ≠ '%') (one : c ≠ '_') : ofChar c = .exactly c := by
  unfold ofChar
  split
  · exact absurd rfl run
  · exact absurd rfl one
  · rfl

/-- The items of a pattern; a backslash at its end stands for itself. -/
def read : List Char → List PatternItem
  | [] => []
  | [c] => [ofChar c]
  | c :: next :: rest =>
      if c = '\\' then .exactly next :: read rest else ofChar c :: read (next :: rest)

/-- A character that escapes nothing is an item of its own. -/
theorem read_cons {c : Char} {rest : List Char} (alone : c ≠ '\\' ∨ rest = []) :
    read (c :: rest) = ofChar c :: read rest := by
  cases rest with
  | nil => rfl
  | cons next rest =>
      have plain : c ≠ '\\' := alone.resolve_right (List.cons_ne_nil _ _)
      rw [read, if_neg plain]

theorem read_escape (next : Char) (rest : List Char) :
    read ('\\' :: next :: rest) = .exactly next :: read rest := by
  rw [read, if_pos rfl]

/-- The characters match the items one after another. -/
def Match : List PatternItem → List Char → Prop
  | [], subject => subject = []
  | .exactly c :: items, subject => ∃ rest, subject = c :: rest ∧ Match items rest
  | .anyCharacter :: items, subject => ∃ c rest, subject = c :: rest ∧ Match items rest
  | .anyRun :: items, subject => ∃ run rest, subject = run ++ rest ∧ Match items rest

theorem match_exactly_cons {c d : Char} {items : List PatternItem} {rest : List Char} :
    Match (.exactly c :: items) (d :: rest) ↔ d = c ∧ Match items rest := by
  simp [Match, and_assoc]

theorem match_anyCharacter_cons {c : Char} {items : List PatternItem} {rest : List Char} :
    Match (.anyCharacter :: items) (c :: rest) ↔ Match items rest := by
  simp [Match]

theorem match_anyRun_cons {items : List PatternItem} {subject : List Char} :
    Match (.anyRun :: items) subject ↔ ∃ rest ∈ subject.tails, Match items rest := by
  simp only [Match, List.mem_tails, List.IsSuffix]
  constructor
  · rintro ⟨run, rest, rfl, matched⟩
    exact ⟨rest, ⟨run, rfl⟩, matched⟩
  · rintro ⟨rest, ⟨run, rfl⟩, matched⟩
    exact ⟨run, rest, rfl, matched⟩

instance decideMatch : (items : List PatternItem) → DecidablePred (Match items)
  | [], subject => inferInstanceAs (Decidable (subject = []))
  | .exactly _ :: _, [] => isFalse (by simp [Match])
  | .exactly c :: items, d :: rest =>
      have := decideMatch items rest
      decidable_of_iff' (d = c ∧ Match items rest) match_exactly_cons
  | .anyCharacter :: _, [] => isFalse (by simp [Match])
  | .anyCharacter :: items, _ :: rest =>
      have := decideMatch items rest
      decidable_of_iff' (Match items rest) match_anyCharacter_cons
  | .anyRun :: items, subject =>
      have := decideMatch items
      decidable_of_iff' (∃ rest ∈ subject.tails, Match items rest) match_anyRun_cons

theorem match_exactly_append {text subject : List Char} {items : List PatternItem} :
    Match (text.map .exactly ++ items) subject ↔
      ∃ rest, subject = text ++ rest ∧ Match items rest := by
  induction text generalizing subject with
  | nil => simp
  | cons c text step =>
      simp only [List.map_cons, List.cons_append, Match, step]
      constructor
      · rintro ⟨_, rfl, rest, rfl, matched⟩
        exact ⟨rest, rfl, matched⟩
      · rintro ⟨rest, rfl, matched⟩
        exact ⟨_, rfl, rest, rfl, matched⟩

theorem match_anyRun (subject : List Char) : Match [.anyRun] subject :=
  ⟨subject, [], (List.append_nil subject).symm, rfl⟩

/-! ## A short text that matches -/

/-- A text that matches, with one character for each item that needs one. -/
def sample : List PatternItem → List Char
  | [] => []
  | .exactly c :: items => c :: sample items
  | .anyCharacter :: items => 'x' :: sample items
  | .anyRun :: items => sample items

theorem match_sample (items : List PatternItem) : Match items (sample items) := by
  induction items with
  | nil => rfl
  | cons item items step =>
      cases item with
      | exactly c => exact ⟨sample items, rfl, step⟩
      | anyCharacter => exact ⟨'x', sample items, rfl, step⟩
      | anyRun => exact ⟨[], sample items, rfl, step⟩

theorem length_sample_ofChar_cons (c : Char) (items : List PatternItem) :
    (sample (ofChar c :: items)).length ≤ (sample items).length + 1 := by
  unfold ofChar
  split <;> simp [sample]

/-- Where the rest is short, only a character without a meaning of its own is sampled as itself. -/
theorem of_sample_ofChar_cons {c : Char} {items : List PatternItem} {rest : List Char}
    (short : (sample items).length ≤ rest.length) (same : sample (ofChar c :: items) = c :: rest) :
    c ≠ '%' ∧ c ≠ '_' ∧ sample items = rest := by
  unfold ofChar at same
  split at same
  · have longer := congrArg List.length same
    simp only [sample, List.length_cons] at longer
    omega
  · exact absurd (List.cons.inj same).1 (by decide)
  · rename_i run one
    exact ⟨run, one, (List.cons.inj same).2⟩

/-! ## Texts in patterns -/

/-- No wildcard is in the text, and no backslash that precedes another character. -/
def IsLiteralBefore (closing text : List Char) : Prop :=
  '%' ∉ text ∧ '_' ∉ text ∧ '\\' ∉ (text ++ closing).dropLast

theorem isLiteralBefore_cons {closing rest : List Char} {c : Char} :
    IsLiteralBefore closing (c :: rest) ↔
      c ≠ '%' ∧ c ≠ '_' ∧ (c ≠ '\\' ∨ rest ++ closing = []) ∧ IsLiteralBefore closing rest := by
  cases follows : rest ++ closing with
  | nil =>
      rcases List.append_eq_nil_iff.1 follows with ⟨rfl, rfl⟩
      simp [IsLiteralBefore, eq_comm]
  | cons next more =>
      simp only [IsLiteralBefore, List.cons_append, follows, List.dropLast_cons_cons,
        List.mem_cons, not_or, reduceCtorEq, or_false]
      tauto

/-- A literal text is read character by character. -/
theorem read_of_isLiteralBefore {closing text : List Char}
    (plain : IsLiteralBefore closing text) :
    read (text ++ closing) = text.map .exactly ++ read closing := by
  induction text with
  | nil => rfl
  | cons c rest step =>
      rcases isLiteralBefore_cons.1 plain with ⟨run, one, alone, others⟩
      rw [List.cons_append, read_cons alone, ofChar_of_plain run one, step others]
      rfl

/-- What is read has a sample that is not longer than the text, and the text only if literal. -/
def SampledWithin (closing text : List Char) : Prop :=
  (sample (read (text ++ closing))).length ≤ text.length ∧
    (sample (read (text ++ closing)) = text → IsLiteralBefore closing text)

theorem SampledWithin.cons {closing rest : List Char} {c : Char}
    (alone : c ≠ '\\' ∨ rest ++ closing = []) (tail : SampledWithin closing rest) :
    SampledWithin closing (c :: rest) := by
  rw [SampledWithin, List.cons_append, read_cons alone]
  refine ⟨(length_sample_ofChar_cons c _).trans (Nat.succ_le_succ tail.1), fun same => ?_⟩
  rcases of_sample_ofChar_cons tail.1 same with ⟨run, one, others⟩
  exact isLiteralBefore_cons.2 ⟨run, one, alone, tail.2 others⟩

/-- With or without a percent sign after it, the backslashes of a text make its sample shorter. -/
theorem sampledWithin {closing : List Char} (closed : closing = [] ∨ closing = ['%'])
    (text : List Char) : SampledWithin closing text := by
  have nothing : SampledWithin closing [] := by
    rcases closed with rfl | rfl
    · exact ⟨le_rfl, fun _ => by simp [IsLiteralBefore]⟩
    · exact ⟨le_rfl, fun _ => by simp [IsLiteralBefore]⟩
  induction text using read.induct with
  | case1 => exact nothing
  | case2 c =>
      rcases closed with rfl | rfl
      · exact nothing.cons (.inr rfl)
      · by_cases escapes : c = '\\'
        · -- The backslash takes the percent sign behind the text.
          subst escapes
          exact ⟨le_rfl, fun same => absurd same (by decide)⟩
        · exact nothing.cons (.inl escapes)
  | case3 next rest step =>
      rw [SampledWithin, List.cons_append, List.cons_append, read_escape]
      have short : (sample (read (rest ++ closing))).length ≤ rest.length := step.1
      refine ⟨by simpa [sample] using Nat.le_succ_of_le short, fun same => ?_⟩
      have longer := congrArg List.length same
      simp only [sample, List.length_cons] at longer
      omega
  | case4 c next rest plain step => exact step.cons (.inl plain)

end PatternItem

/-- The condition `subject LIKE pattern` on two texts. -/
def Like (pattern subject : String) : Prop :=
  PatternItem.Match (PatternItem.read pattern.toList) subject.toList

instance (pattern subject : String) : Decidable (Like pattern subject) :=
  inferInstanceAs (Decidable (PatternItem.Match _ _))

namespace Affix

/-- The text stands in the subject, at this place. -/
def Finds (text subject : String) : Affix → Prop
  | .start => text.toList <+: subject.toList
  | .ending => text.toList <:+ subject.toList
  | .anywhere => text.toList <:+: subject.toList

instance (text subject : String) : (affix : Affix) → Decidable (affix.Finds text subject)
  | .start => inferInstanceAs (Decidable (text.toList <+: subject.toList))
  | .ending => inferInstanceAs (Decidable (text.toList <:+ subject.toList))
  | .anywhere => inferInstanceAs (Decidable (text.toList <:+: subject.toList))

/-- What stands before the text in the pattern. -/
def opening : Affix → List Char
  | .start => []
  | .ending | .anywhere => ['%']

/-- What stands after the text in the pattern. -/
def closing : Affix → List Char
  | .ending => []
  | .start | .anywhere => ['%']

theorem pattern_toList (affix : Affix) (text : String) :
    (affix.pattern text).toList = affix.opening ++ (text.toList ++ affix.closing) := by
  cases affix <;> simp [pattern, opening, closing]

/--
No character of the text has a meaning of its own in the pattern: no wildcard is
in it, and no backslash that precedes another character.
-/
def IsLiteral (affix : Affix) (text : String) : Prop :=
  PatternItem.IsLiteralBefore affix.closing text.toList

instance (affix : Affix) (text : String) : Decidable (affix.IsLiteral text) :=
  inferInstanceAs (Decidable (_ ∧ _ ∧ _))

theorem sample_pattern (affix : Affix) (text : String) :
    PatternItem.sample (PatternItem.read (affix.pattern text).toList) =
      PatternItem.sample (PatternItem.read (text.toList ++ affix.closing)) := by
  rw [pattern_toList]
  cases affix with
  | start => rfl
  | ending | anywhere =>
      rw [opening, List.singleton_append, PatternItem.read_cons (.inl (by decide))]
      rfl

/-- A subject that is not longer than the text holds it only if it is the text. -/
theorem Finds.eq {affix : Affix} {text subject : String} (found : affix.Finds text subject)
    (short : subject.toList.length ≤ text.toList.length) : subject.toList = text.toList := by
  have inside : text.toList <:+: subject.toList := by
    cases affix with
    | start => exact List.IsPrefix.isInfix found
    | ending => exact List.IsSuffix.isInfix found
    | anywhere => exact found
  exact (inside.eq_of_length (le_antisymm inside.length_le short)).symm

/-- A literal text is found at its place, and only there. -/
theorem like_pattern_of_isLiteral {affix : Affix} {text : String}
    (plain : affix.IsLiteral text) (subject : String) :
    Like (affix.pattern text) subject ↔ affix.Finds text subject := by
  have items := PatternItem.read_of_isLiteralBefore plain
  have opened (rest : List Char) : PatternItem.read ('%' :: rest) =
      .anyRun :: PatternItem.read rest := PatternItem.read_cons (.inl (by decide))
  rw [Like, pattern_toList]
  cases affix with
  | start =>
      rw [opening, List.nil_append, items, PatternItem.match_exactly_append]
      constructor
      · rintro ⟨rest, same, -⟩
        exact ⟨rest, same.symm⟩
      · rintro ⟨rest, same⟩
        exact ⟨rest, same.symm, PatternItem.match_anyRun rest⟩
  | ending =>
      rw [opening, List.singleton_append, opened, items, PatternItem.Match]
      simp only [PatternItem.match_exactly_append]
      constructor
      · rintro ⟨run, _, same, _, rfl, rfl⟩
        exact ⟨run, by rw [same, List.append_nil]⟩
      · rintro ⟨run, same⟩
        exact ⟨run, text.toList, same.symm, [], (List.append_nil _).symm, rfl⟩
  | anywhere =>
      rw [opening, List.singleton_append, opened, items, PatternItem.Match]
      simp only [PatternItem.match_exactly_append]
      constructor
      · rintro ⟨run, _, same, rest, rfl, -⟩
        exact ⟨run, rest, by rw [same, List.append_assoc]⟩
      · rintro ⟨run, rest, same⟩
        exact ⟨run, text.toList ++ rest, by rw [← same, List.append_assoc], rest, rfl,
          PatternItem.match_anyRun rest⟩

/-- The pattern finds just what holds the text at its place exactly if the text is literal. -/
theorem like_pattern_iff (affix : Affix) (text : String) :
    (∀ subject, Like (affix.pattern text) subject ↔ affix.Finds text subject) ↔
      affix.IsLiteral text := by
  refine ⟨fun finds => ?_, like_pattern_of_isLiteral⟩
  have closed : affix.closing = [] ∨ affix.closing = ['%'] := by
    cases affix <;> simp [closing]
  rcases PatternItem.sampledWithin closed text.toList with ⟨short, literal⟩
  have sampled : ∃ subject : String, subject.toList =
      PatternItem.sample (PatternItem.read (affix.pattern text).toList) :=
    ⟨String.ofList _, String.toList_ofList⟩
  rcases sampled with ⟨subject, characters⟩
  have matched : Like (affix.pattern text) subject := by
    rw [Like, characters]
    exact PatternItem.match_sample _
  rw [sample_pattern] at characters
  rw [← characters] at short literal
  exact literal (((finds subject).1 matched).eq short)

/-- A backslash at the end of the text takes the percent sign behind it. -/
example : ¬ Like (start.pattern "a\\") "a\\b" ∧ Like (start.pattern "a\\") "a%" := by decide

end Affix

/-! ## Conditions -/

/-- The text of a column, or of several columns put together, in a row of texts. -/
def Expr.textIn (row : ColumnRef → String) : Expr → Option String
  | .column single => some (row single)
  | .concat several => some (String.join (several.map row))
  | _ => none

/-- A LIKE condition holds in a row of texts. -/
def Expr.LikeHolds (row : ColumnRef → String) : Expr → Prop
  | .like subject pattern => ∃ text, subject.textIn row = some text ∧ Like pattern text
  | _ => False

variable {config : Config} {depth : Nat} {names : Names} {owner field : String}
variable {before after : CompileState}

/-- The subject of a pattern is the text of its columns, one after another. -/
theorem patternSubject_paths {affix : Affix} {text : String} {subject : Expr}
    (resolved : patternSubject config names owner field affix = .ok subject) :
    ∃ columns,
      List.Forall₂ (fun path column => names.resolveIn owner path = .ok column)
        ((Constraint.matching affix text).paths config field) columns ∧
      ∀ row, subject.textIn row = some (String.join (columns.map row)) := by
  unfold patternSubject at resolved
  unfold Constraint.paths Constraint.affix
  split at resolved
  · rename_i several
    rcases map_eq_ok.1 resolved with ⟨columns, read, rfl⟩
    rw [if_pos several]
    exact ⟨columns, List.forall₂_map_left_iff.2 (mapM_eq_ok.1 read), fun _ => rfl⟩
  · rename_i single
    rcases map_eq_ok.1 resolved with ⟨column, read, rfl⟩
    rw [if_neg single]
    refine ⟨[column], .cons read .nil, fun row => ?_⟩
    simp [Expr.textIn, String.join]

/--
The condition of a pattern constraint says that the texts of its columns, put
together, match the pattern that the statement holds as a string; and this finds
the given text at its place exactly if that is literal.
-/
theorem pattern_condition_finds_iff {affix : Affix} {text : String} {expr : Expr}
    (compiled : Yields (constraintExpr config depth names owner field (.matching affix text))
      before expr after) :
    ∃ columns,
      List.Forall₂ (fun path column => names.resolveIn owner path = .ok column)
        ((Constraint.matching affix text).paths config field) columns ∧
      (∀ row, expr.LikeHolds row ↔
        Like (affix.pattern text) (String.join (columns.map row))) ∧
      lex (String.ofList (Json.string (affix.pattern text)).literal) =
        .ok [.string (affix.pattern text)] ∧
      ((∀ subject, Like (affix.pattern text) subject ↔ affix.Finds text subject) ↔
        affix.IsLiteral text) := by
  rcases (Constraint.yields_of_plain fun _ _ => Constraint.noConfusion).1 compiled with
    ⟨subject, resolved, rfl, -⟩
  rcases patternSubject_paths resolved with ⟨columns, each, texts⟩
  refine ⟨columns, each, fun row => ?_, ?_, affix.like_pattern_iff text⟩
  · simp only [Constraint.predicate, Expr.LikeHolds, texts, Option.some.injEq, exists_eq_left']
  · have reads := reads_value (.string (affix.pattern text))
    rw [← String.toList_ofList (l := (Json.string (affix.pattern text)).literal)] at reads
    exact reads.lex

/-- The names in scope where users are searched by their first and last names. -/
def searchedNames : Names := ⟨"users", [], []⟩

/-- A part of a full name is found in the two columns put together. -/
def searchedCondition : Expr :=
  .like (.concat [⟨some "users", "first"⟩, ⟨some "users", "last"⟩]) "%bo%"

theorem pattern_condition_finds_iff_searchedNames :
    Yields (constraintExpr {} 0 searchedNames "users" "first|last" (.matching .anywhere "bo"))
        default searchedCondition default ∧
      ∀ row, searchedCondition.LikeHolds row ↔
        Affix.anywhere.Finds "bo" (row ⟨some "users", "first"⟩ ++ row ⟨some "users", "last"⟩) := by
  have compiled :
      Yields (constraintExpr {} 0 searchedNames "users" "first|last" (.matching .anywhere "bo"))
        default searchedCondition default := by
    cbv
  refine ⟨compiled, fun row => ?_⟩
  rcases pattern_condition_finds_iff compiled with ⟨columns, each, holds, -, finds⟩
  have paths : (Constraint.matching .anywhere "bo").paths {} "first|last" = ["first", "last"] := by
    cbv
  have first : searchedNames.resolveIn "users" "first" = .ok ⟨some "users", "first"⟩ := by cbv
  have last : searchedNames.resolveIn "users" "last" = .ok ⟨some "users", "last"⟩ := by cbv
  have same : columns = [⟨some "users", "first"⟩, ⟨some "users", "last"⟩] := by
    simpa [paths, first, last, List.forall₂_cons_left_iff] using each
  rw [holds, finds.2 (by decide), same]
  simp [String.join]

/-- A search for texts that begin with one that holds a wildcard. -/
def fiftyPercent : Json :=
  .object
    [("table", .string "t"), ("where", .object [("f", .object [("str", .string "50%")])])]

def fiftyPercentQuery : Query :=
  { table := "t", conditions := ⟨[⟨"f", [.matching .start "50%"]⟩]⟩ }

def fiftyPercentText : String :=
  "SELECT * FROM \x60t\x60 WHERE \x60t\x60.\x60f\x60 LIKE \x2750%%\x27"

/-- A subject that does not begin with the given text can match its pattern. -/
theorem pattern_condition_exceeds_fiftyPercent :
    Document.query fiftyPercent = .ok fiftyPercentQuery ∧
      (fiftyPercentQuery.toSql {} .find).1 = .ok fiftyPercentText ∧
      lex fiftyPercentText = .ok
        [.word "SELECT", .symbol "*", .word "FROM", .name "t", .word "WHERE", .name "t",
          .symbol ".", .name "f", .word "LIKE", .string (Affix.start.pattern "50%")] ∧
      Like (Affix.start.pattern "50%") "500" ∧ ¬ Affix.start.Finds "50%" "500" := by
  exact ⟨by cbv, by cbv, by cbv, by decide, by decide⟩

end SqlScribe
