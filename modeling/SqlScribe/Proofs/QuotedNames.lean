import SqlScribe.Proofs.Checked
import SqlScribe.Proofs.Lexis.Literal

/-!
# Quoted names

A name is written with each of its segments between backticks, and with the
dots of the name between the segments.  `QuotedPath` is the grammar of such
texts, and the lexer finds exactly the segments in them, so that a text is
written for one name only.

Only the empty name is refused for being empty.  A name with a dot at one of its
ends, or with two dots next to each other, has an empty segment, and this
segment is quoted like any other.
-/

namespace SqlScribe

open Lexis

/-! ## The grammar -/

/-- What stands between the backticks around a name: each backtick of the name is doubled. -/
inductive NameBody : List Char → List Char → Prop
  | nil : NameBody [] []
  | plain {c : Char} {body name : List Char}
      (unquoted : c ≠ backtick) (rest : NameBody body name) : NameBody (c :: body) (c :: name)
  | doubled {body name : List Char} (rest : NameBody body name) :
      NameBody (backtick :: backtick :: body) (backtick :: name)

/-- The text of a name between backticks. -/
def QuotedIdentifier (text : List Char) (name : String) : Prop :=
  ∃ body, NameBody body name.toList ∧ text = backtick :: body ++ [backtick]

/-- The text of several names between backticks, with a dot between neighbours. -/
inductive QuotedPath : List Char → List String → Prop
  | last {text : List Char} {name : String} (quoted : QuotedIdentifier text name) :
      QuotedPath text [name]
  | dotted {text rest : List Char} {name : String} {names : List String}
      (quoted : QuotedIdentifier text name) (others : QuotedPath rest names) :
      QuotedPath (text ++ '.' :: rest) (name :: names)

theorem nameBody_iff {body name : List Char} :
    NameBody body name ↔
      body = name.flatMap fun c => if c = backtick then [backtick, backtick] else [c] := by
  constructor
  · intro quoted
    induction quoted with
    | nil => rfl
    | plain unquoted _ step => rw [List.flatMap_cons, if_neg unquoted, step, List.singleton_append]
    | doubled _ step => rw [List.flatMap_cons, if_pos rfl, step]; rfl
  · rintro rfl
    induction name with
    | nil => exact .nil
    | cons c rest step =>
        by_cases quote : c = backtick
        · subst quote
          rw [List.flatMap_cons, if_pos rfl]
          exact .doubled step
        · rw [List.flatMap_cons, if_neg quote]
          exact .plain quote step

theorem quotedIdentifier_iff {text : List Char} {name : String} :
    QuotedIdentifier text name ↔ text = quotedSegment name.toList := by
  simp only [QuotedIdentifier, nameBody_iff, exists_eq_left, quotedSegment_eq]

/-- Texts of the grammar are joined from the texts of the names. -/
theorem quotedPath_iff {text : List Char} {names : List String} :
    QuotedPath text names ↔
      names ≠ [] ∧
        text = Text.joinWith ['.'] (names.map fun name => quotedSegment name.toList) := by
  constructor
  · intro path
    induction path with
    | last quoted => exact ⟨List.cons_ne_nil _ _, quotedIdentifier_iff.1 quoted⟩
    | dotted quoted _ step =>
        rcases step with ⟨nonempty, rfl⟩
        obtain rfl := quotedIdentifier_iff.1 quoted
        refine ⟨List.cons_ne_nil _ _, ?_⟩
        rw [List.map_cons, Text.joinWith_cons_of_ne_nil _ _ (mt List.map_eq_nil_iff.1 nonempty),
          List.append_assoc]
        rfl
  · rintro ⟨nonempty, rfl⟩
    induction names with
    | nil => exact absurd rfl nonempty
    | cons name rest step =>
        cases rest with
        | nil => exact .last (quotedIdentifier_iff.2 rfl)
        | cons next others =>
            have own : QuotedIdentifier (quotedSegment name.toList) name :=
              quotedIdentifier_iff.2 rfl
            have whole := QuotedPath.dotted own (step (List.cons_ne_nil next others))
            rw [List.map_cons, List.map_cons, Text.joinWith, List.append_assoc]
            exact whole

/-! ## Reading -/

/-- The tokens of names with dots between them. -/
def pathTokens : List String → List Token
  | [] => []
  | [name] => [.name name]
  | name :: next :: rest => .name name :: .symbol "." :: pathTokens (next :: rest)

theorem pathTokens_cons {name : String} {names : List String} (nonempty : names ≠ []) :
    pathTokens (name :: names) = .name name :: .symbol "." :: pathTokens names := by
  cases names with
  | nil => exact absurd rfl nonempty
  | cons next rest => rfl

/-- The names among tokens. -/
def Token.identifier? : Token → Option String
  | .name identifier => some identifier
  | _ => none

theorem filterMap_pathTokens (names : List String) :
    (pathTokens names).filterMap Token.identifier? = names := by
  induction names with
  | nil => rfl
  | cons name rest step =>
      cases rest with
      | nil => rfl
      | cons next others =>
          show name :: (pathTokens (next :: others)).filterMap Token.identifier? = _
          rw [step]

theorem pathTokens_injective : Function.Injective pathTokens :=
  Function.LeftInverse.injective filterMap_pathTokens

/-- The lexer finds the names in a text of the grammar. -/
theorem QuotedPath.reads {text : List Char} {names : List String} (path : QuotedPath text names) :
    Reads text (pathTokens names) := by
  induction path with
  | last quoted =>
      rw [quotedIdentifier_iff.1 quoted]
      exact reads_quotedName _
  | @dotted _ _ name _ quoted others step =>
      have whole := (opens_qualifier name).append_reads step
      rw [List.append_assoc] at whole
      rw [quotedIdentifier_iff.1 quoted, pathTokens_cons (quotedPath_iff.1 others).1]
      exact whole

theorem QuotedPath.lex {text : List Char} {names : List String} (path : QuotedPath text names) :
    lex (String.ofList text) = .ok (pathTokens names) := by
  apply Reads.lex
  rw [String.toList_ofList]
  exact path.reads

/-! ## Names and their segments -/

/-- The parts of a name between its dots. -/
def segments (name : String) : List String := (Text.splitAt '.' name.toList).map String.ofList

theorem segments_ne_nil (name : String) : segments name ≠ [] :=
  mt List.map_eq_nil_iff.1 (Text.splitAt_ne_nil '.' name.toList)

theorem segments_injective : Function.Injective segments := by
  intro first second same
  have pieces : Text.splitAt '.' first.toList = Text.splitAt '.' second.toList :=
    List.map_injective_iff.2 (fun _ _ equal => String.ofList_inj.1 equal) same
  have joined := congrArg (Text.joinWith ['.']) pieces
  rw [Text.joined_splitAt, Text.joined_splitAt] at joined
  exact String.toList_inj.1 joined

/-- A name that is not empty and holds no NUL is quoted segment by segment; others are refused. -/
theorem quotedName_eq_ok {name : String} {text : List Char} :
    quotedName name = .ok text ↔
      (name ≠ "" ∧ '\x00' ∉ name.toList) ∧ QuotedPath text (segments name) := by
  have written : (segments name).map (fun segment => quotedSegment segment.toList) =
      (Text.splitAt '.' name.toList).map quotedSegment := by
    rw [segments, List.map_map]
    exact List.map_congr_left fun piece _ => congrArg quotedSegment String.toList_ofList
  rw [quotedPath_iff, written, quotedName]
  by_cases empty : name = ""
  · subst empty
    simp
  · have present : name.toList ≠ [] := mt String.toList_eq_nil_iff.1 empty
    by_cases nul : '\x00' ∈ name.toList
    · simp [present, nul]
    · rw [if_neg present, if_neg nul, Except.ok.injEq]
      simp [empty, nul, segments_ne_nil, @eq_comm _ text]

/-- Neither of the ends of the name is a dot, and no two dots stand next to each other. -/
structure DotsApart (name : String) : Prop where
  first : ¬ ['.'] <+: name.toList
  last : ¬ ['.'] <:+ name.toList
  inner : ¬ ['.', '.'] <:+: name.toList

theorem empty_mem_segments_iff {name : String} :
    "" ∈ segments name ↔ [] ∈ Text.splitAt '.' name.toList := by
  rw [segments, List.mem_map]
  constructor
  · rintro ⟨piece, found, spelled⟩
    obtain rfl : piece = [] := by simpa using congrArg String.toList spelled
    exact found
  · intro found
    exact ⟨[], found, String.ofList_nil⟩

theorem segments_nonempty_iff {name : String} (nonempty : name ≠ "") :
    (∀ segment ∈ segments name, segment ≠ "") ↔ DotsApart name := by
  have present : ¬ name.toList = [] := mt String.toList_eq_nil_iff.1 nonempty
  rw [List.forall_mem_ne', empty_mem_segments_iff, Text.nil_mem_splitAt_iff]
  constructor
  · intro apart
    simp only [not_or] at apart
    exact ⟨apart.2.1, apart.2.2.1, apart.2.2.2⟩
  · rintro ⟨first, last, inner⟩
    simp only [not_or]
    exact ⟨present, first, last, inner⟩

theorem nul_not_mem_segment {name segment : String} (free : '\x00' ∉ name.toList)
    (member : segment ∈ segments name) : '\x00' ∉ segment.toList := by
  rcases List.mem_map.1 member with ⟨piece, found, rfl⟩
  rw [String.toList_ofList]
  exact fun inside => free (Text.mem_of_mem_splitAt found inside)

theorem exists_quotedName_iff {name : String} :
    (∃ text, quotedName name = .ok text) ↔ name ≠ "" ∧ '\x00' ∉ name.toList := by
  simp only [quotedName_eq_ok, exists_and_left, quotedPath_iff, exists_and_left, exists_eq,
    and_true]
  exact and_iff_left (segments_ne_nil name)

/-- Two names are not written alike. -/
theorem quotedName_unique {first second : String} {text : List Char}
    (own : quotedName first = .ok text) (other : quotedName second = .ok text) :
    first = second := by
  have tokens := (quotedName_eq_ok.1 own).2.lex
  rw [(quotedName_eq_ok.1 other).2.lex] at tokens
  exact segments_injective (pathTokens_injective (Except.ok.inj tokens).symm)

/--
A name is quoted unless it is empty or holds NUL.  Its text consists of the
quoted segments of the name with dots between them, the lexer reads it as these
segments, none of them holds NUL, and no other name has the same text.  The
segments are not empty exactly if no dot of the name stands at one of its ends
or next to another dot.
-/
theorem quoted_names_read_back (name : String) :
    ((∃ text, quotedName name = .ok text) ↔ name ≠ "" ∧ '\x00' ∉ name.toList) ∧
      ∀ text, quotedName name = .ok text →
        QuotedPath text (segments name) ∧
          lex (String.ofList text) = .ok (pathTokens (segments name)) ∧
          (∀ segment ∈ segments name, '\x00' ∉ segment.toList) ∧
          (∀ other, quotedName other = .ok text → other = name) ∧
          ((∀ segment ∈ segments name, segment ≠ "") ↔ DotsApart name) := by
  refine ⟨exists_quotedName_iff, fun text quoted => ?_⟩
  rcases quotedName_eq_ok.1 quoted with ⟨⟨nonempty, nulFree⟩, path⟩
  exact ⟨path, path.lex, fun segment => nul_not_mem_segment nulFree,
    fun other same => quotedName_unique same quoted, segments_nonempty_iff nonempty⟩

theorem quoted_names_read_back_oddColumn :
    quotedName "owner.we`ird" = .ok "`owner`.`we``ird`".toList ∧
      lex "`owner`.`we``ird`" = .ok [.name "owner", .symbol ".", .name "we`ird"] ∧
      ∀ other, quotedName other = .ok "`owner`.`we``ird`".toList → other = "owner.we`ird" := by
  have quoted : quotedName "owner.we`ird" = .ok "`owner`.`we``ird`".toList := rfl
  rcases (quoted_names_read_back "owner.we`ird").2 _ quoted with ⟨_, read, _, unique, _⟩
  rw [String.ofList_toList] at read
  exact ⟨quoted, read, unique⟩

/-- Two dots next to each other leave an empty segment, and it is quoted as well. -/
theorem quoted_names_empty_between_dots :
    quotedName "a..b" = .ok "`a`.``.`b`".toList ∧
      lex "`a`.``.`b`" = .ok [.name "a", .symbol ".", .name "", .symbol ".", .name "b"] :=
  ⟨rfl, rfl⟩

end SqlScribe
