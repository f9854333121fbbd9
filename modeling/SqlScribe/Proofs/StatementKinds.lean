import SqlScribe.Proofs.Blanks
import SqlScribe.Proofs.ByteOffsets

/-!
# Where the kind of a statement is found

Before the first keyword of a statement there can be blanks, comments and
opening parentheses.  `Skips` says which texts are passed over there, and
`ofSql_eq_iff` that the kind is that of the keyword behind such a text.

A comment between `/*` and `*/` is not passed over as a whole if its text begins
with a slash: together with the star before it, this slash is taken for the end
of the comment.
-/

namespace SqlScribe

/-! ## First occurrences -/

namespace Text

variable {pattern text front rest : List Char}

theorem after?_cons_of_begins {c : Char} (begins : pattern <+: c :: text) :
    after? pattern (c :: text) = some ((c :: text).drop pattern.length) := by
  rw [after?, if_pos (List.isPrefixOf_iff_prefix.2 begins)]

theorem after?_cons_of_later {c : Char} (later : ¬ pattern <+: c :: text) :
    after? pattern (c :: text) = after? pattern text := by
  rw [after?, if_neg (mt List.isPrefixOf_iff_prefix.1 later)]

/-- What comes after a pattern whose first occurrence in the text is this one. -/
theorem after?_eq_some_iff (nonempty : pattern ≠ []) :
    after? pattern text = some rest ↔
      ∃ front, text = front ++ pattern ++ rest ∧ ¬ pattern <:+: (front ++ pattern).dropLast := by
  have long := List.length_pos_iff.2 nonempty
  have unfinished (c : Char) (front : List Char) :
      (c :: front ++ pattern).dropLast = c :: (front ++ pattern).dropLast :=
    List.dropLast_cons_of_ne_nil (by simp [nonempty])
  constructor
  · intro found
    induction text with
    | nil => simp [after?, nonempty] at found
    | cons c text step =>
        by_cases begins : pattern <+: c :: text
        · rw [after?_cons_of_begins begins] at found
          obtain ⟨back, same⟩ := begins
          rw [← same, List.drop_left, Option.some.injEq] at found
          subst found
          refine ⟨[], same.symm, fun inside => ?_⟩
          have short := inside.length_le
          rw [List.nil_append, List.length_dropLast] at short
          omega
        · rw [after?_cons_of_later begins] at found
          rcases step found with ⟨front, rfl, first⟩
          refine ⟨c :: front, rfl, ?_⟩
          rw [unfinished, List.infix_cons_iff]
          rintro (starts | earlier)
          · refine begins (starts.trans ?_)
            rw [List.cons_prefix_cons]
            exact ⟨rfl, (List.dropLast_prefix _).trans (List.prefix_append _ _)⟩
          · exact first earlier
  · rintro ⟨front, rfl, first⟩
    induction front with
    | nil =>
        rcases pattern with _ | ⟨c, pattern⟩
        · exact absurd rfl nonempty
        · exact (after?_cons_of_begins (List.prefix_append _ rest)).trans (by simp)
    | cons c front step =>
        rw [unfinished, List.infix_cons_iff, not_or] at first
        refine (after?_cons_of_later fun begins => first.1 ?_).trans (step first.2)
        -- The occurrence would be within the text before the end of the first one.
        refine List.prefix_of_prefix_length_le begins ?_ ?_
        · rw [List.cons_prefix_cons]
          exact ⟨rfl, (List.dropLast_prefix _).trans (List.prefix_append _ _)⟩
        · simp only [List.length_cons, List.length_dropLast, List.length_append]
          omega

/-- The first newline is the one before which there is none. -/
theorem after?_newline_iff :
    after? ['\n'] text = some rest ↔ ∃ line, text = line ++ '\n' :: rest ∧ '\n' ∉ line := by
  rw [after?_eq_some_iff (by simp)]
  simp [List.singleton_infix_iff]

/-- The first end of a comment is the one before which there is none. -/
theorem after?_commentEnd_iff :
    after? ['*', '/'] text = some rest ↔
      ∃ body, text = body ++ '*' :: '/' :: rest ∧ ¬ ['*', '/'] <:+: body := by
  have unfinished (body : List Char) :
      ['*', '/'] <:+: (body ++ ['*', '/']).dropLast ↔ ['*', '/'] <:+: body := by
    have dropped : (body ++ ['*', '/']).dropLast = body ++ ['*'] := by
      rw [List.dropLast_append_of_ne_nil (by simp)]
      rfl
    rw [dropped, List.infix_concat_iff, or_iff_right_iff_imp]
    rintro ⟨front, same⟩
    have last := congrArg List.getLast? same
    simp at last
  rw [after?_eq_some_iff (by simp)]
  simp only [unfinished, List.append_assoc]
  rfl

end Text

namespace StatementKind

/-! ## What is passed over -/

variable {text front piece rest : List Char} {kind : StatementKind} {sql : String}

theorem infix_star_cons {body : List Char} :
    ['*', '/'] <:+: '*' :: body ↔ body.head? = some '/' ∨ ['*', '/'] <:+: body := by
  rw [List.infix_cons_iff, List.cons_prefix_cons, List.head?_eq_some_iff]
  simp [List.IsPrefix, eq_comm]

/-- A piece of text that is passed over in one step. -/
inductive IsLead : List Char → Prop
  | parenthesis : IsLead ['(']
  | lineComment {line : List Char} (closed : '\n' ∉ line) : IsLead ('-' :: '-' :: line ++ ['\n'])
  | blockComment {body : List Char} (started : body.head? ≠ some '/')
      (closed : ¬ ['*', '/'] <:+: body) : IsLead ('/' :: '*' :: body ++ ['*', '/'])
  | sharedStar : IsLead ['/', '*', '/']

/-- A text that is passed over: it consists of blanks and of such pieces. -/
inductive Skips : List Char → Prop
  | nil : Skips []
  | blank {c : Char} {rest : List Char} (blank : Text.isBlank c) (others : Skips rest) :
      Skips (c :: rest)
  | lead {piece rest : List Char} (lead : IsLead piece) (others : Skips rest) :
      Skips (piece ++ rest)

theorem lead_eq_skipped_iff :
    lead text = .skipped rest ↔ ∃ piece, IsLead piece ∧ text = piece ++ rest := by
  constructor
  · intro found
    by_cases line : ['-', '-'] <+: text
    · obtain ⟨comment, rfl⟩ := line
      change lead ('-' :: '-' :: comment) = _ at found
      rw [lead_lineComment, leadBehind_eq_skipped, Text.after?_newline_iff] at found
      rcases found with ⟨line, rfl, closed⟩
      exact ⟨_, .lineComment closed, by simp⟩
    · by_cases block : ['/', '*'] <+: text
      · obtain ⟨comment, rfl⟩ := block
        change lead ('/' :: '*' :: comment) = _ at found
        rw [lead_blockComment, leadBehind_eq_skipped, Text.after?_commentEnd_iff] at found
        rcases found with ⟨_ | ⟨star, body⟩, same, closed⟩
        · cases same
          exact ⟨_, .sharedStar, rfl⟩
        · cases same
          rw [infix_star_cons, not_or] at closed
          exact ⟨_, .blockComment closed.1 closed.2, by simp⟩
      · unfold lead at found
        split at found
        · exact absurd ⟨_, rfl⟩ line
        · exact absurd ⟨_, rfl⟩ block
        · cases found
          exact ⟨_, .parenthesis, rfl⟩
        · cases found
  · rintro ⟨piece, lead, rfl⟩
    cases lead with
    | parenthesis => rfl
    | @lineComment line closed =>
        have found : StatementKind.lead ('-' :: '-' :: (line ++ '\n' :: rest)) = .skipped rest := by
          rw [lead_lineComment, leadBehind_eq_skipped, Text.after?_newline_iff]
          exact ⟨line, rfl, closed⟩
        simpa using found
    | @blockComment body started closed =>
        have found : StatementKind.lead ('/' :: '*' :: (body ++ '*' :: '/' :: rest)) =
            .skipped rest := by
          rw [lead_blockComment, leadBehind_eq_skipped, Text.after?_commentEnd_iff]
          refine ⟨'*' :: body, rfl, ?_⟩
          rw [infix_star_cons, not_or]
          exact ⟨started, closed⟩
        simpa using found
    | sharedStar => rfl

theorem lead_of_isAlpha {c : Char} {rest : List Char} (letter : c.isAlpha) :
    lead (c :: rest) = .none := by
  unfold lead
  split
  · cases ‹c :: rest = _›
    cases letter
  · cases ‹c :: rest = _›
    cases letter
  · cases ‹c :: rest = _›
    cases letter
  · rfl

/-- A text that begins with a letter remains as it is. -/
theorem withoutLead_of_isAlpha {c : Char} {rest : List Char} (letter : c.isAlpha) :
    withoutLead (c :: rest) = c :: rest := by
  have inked : Text.isBlank c = false :=
    Text.isBlank_of_isAlphanum (by simp [Char.isAlphanum, letter])
  have trimmed : Text.trimStart (c :: rest) = c :: rest := Text.trimStart_cons inked rest
  rw [withoutLead_of_none (by rw [trimmed, lead_of_isAlpha letter]), trimmed]

theorem withoutLead_blank {c : Char} (blank : Text.isBlank c) (rest : List Char) :
    withoutLead (c :: rest) = withoutLead rest := by
  have trimmed : Text.trimStart (c :: rest) = Text.trimStart rest :=
    List.dropWhile_cons_of_pos blank
  cases found : lead (Text.trimStart rest) with
  | skipped more =>
      rw [withoutLead_of_skipped found, withoutLead_of_skipped (trimmed ▸ found)]
  | unclosed =>
      rw [withoutLead_of_unclosed found, withoutLead_of_unclosed (trimmed ▸ found)]
  | none =>
      rw [withoutLead_of_none found, withoutLead_of_none (trimmed ▸ found), trimmed]

/-- The first character of a piece is not blank. -/
theorem IsLead.trimStart_append (lead : IsLead piece) (rest : List Char) :
    Text.trimStart (piece ++ rest) = piece ++ rest := by
  cases lead <;> rfl

/-- What is passed over might as well not be there. -/
theorem withoutLead_append (skips : Skips front) (text : List Char) :
    withoutLead (front ++ text) = withoutLead text := by
  induction skips with
  | nil => rfl
  | blank blank _ step => rw [List.cons_append, withoutLead_blank blank, step]
  | @lead piece rest lead _ step =>
      have found : StatementKind.lead (Text.trimStart (piece ++ (rest ++ text))) =
          .skipped (rest ++ text) := by
        rw [lead.trimStart_append, lead_eq_skipped_iff]
        exact ⟨piece, lead, rfl⟩
      rw [List.append_assoc, withoutLead_of_skipped found, step]

theorem IsLead.skips (lead : IsLead piece) : Skips piece := by
  have alone := Skips.lead lead .nil
  rwa [List.append_nil] at alone

theorem Skips.blanks {blanks : List Char} (each : ∀ c ∈ blanks, Text.isBlank c)
    (skips : Skips front) : Skips (blanks ++ front) := by
  induction blanks with
  | nil => exact skips
  | cons c blanks step =>
      rw [List.forall_mem_cons] at each
      exact .blank each.1 (step each.2)

theorem Skips.append (own : Skips front) (other : Skips rest) : Skips (front ++ rest) := by
  induction own with
  | nil => exact other
  | blank blank _ step => exact .blank blank step
  | lead lead _ step =>
      rw [List.append_assoc]
      exact .lead lead step

/-- A text is what is passed over and what remains, unless a comment never ends. -/
theorem exists_skips (text : List Char) :
    withoutLead text = [] ∨ ∃ front, Skips front ∧ text = front ++ withoutLead text := by
  induction text using withoutLead.induct with
  | case1 text trimmed rest found step =>
      rcases Text.exists_trimStart text with ⟨blanks, parts, each⟩
      rcases lead_eq_skipped_iff.1 found with ⟨piece, lead, same⟩
      rw [withoutLead_of_skipped found]
      refine step.imp_right ?_
      rintro ⟨front, skips, remains⟩
      refine ⟨_, .blanks each (.lead lead skips), ?_⟩
      rw [List.append_assoc, List.append_assoc, ← remains, ← same]
      exact parts
  | case2 text trimmed found => exact .inl (withoutLead_of_unclosed found)
  | case3 text trimmed found =>
      rcases Text.exists_trimStart text with ⟨blanks, parts, each⟩
      rw [withoutLead_of_none found]
      refine .inr ⟨_, .blanks each .nil, ?_⟩
      rw [List.append_nil]
      exact parts

/-! ## Keywords -/

/-- The keyword of a kind, if there is one. -/
def keyword? : StatementKind → Option String
  | .select => some "SELECT"
  | .insert => some "INSERT"
  | .update => some "UPDATE"
  | .delete => some "DELETE"
  | .create => some "CREATE"
  | .alter => some "ALTER"
  | .drop => some "DROP"
  | .other => none

theorem mem_keywords_iff {keyword : String} :
    (keyword, kind) ∈ keywords ↔ kind.keyword? = some keyword := by
  cases kind <;> simp [keywords, keyword?, eq_comm]

/-- The word is the keyword of a kind, in any letter case. -/
def Spells (word : List Char) (kind : StatementKind) : Prop :=
  ∃ keyword, kind.keyword? = some keyword ∧ word.map Char.toUpper = keyword.toList

theorem isAlpha_of_toUpper {c : Char} (letter : c.toUpper.isAlpha) : c.isAlpha := by
  unfold Char.toUpper at letter
  split at letter
  · rename_i lower
    exact isAlpha_iff.2 (.inr lower)
  · exact letter

theorem Spells.exists_cons {word : List Char} (spells : Spells word kind) :
    ∃ c more, word = c :: more ∧ c.isAlpha := by
  have begins : ∀ entry ∈ keywords, entry.1.toList.head?.any Char.isAlpha := by decide
  rcases spells with ⟨keyword, listed, same⟩
  have letter := begins _ (mem_keywords_iff.2 listed)
  rw [← same] at letter
  cases word with
  | nil => cases letter
  | cons c more => exact ⟨c, more, rfl, isAlpha_of_toUpper letter⟩

theorem startsWithKeyword_iff {keyword : String} :
    startsWithKeyword text keyword ↔
      ∃ word rest, text = word ++ rest ∧ word.map Char.toUpper = keyword.toList ∧ endsWord rest := by
  rw [startsWithKeyword_eq, Bool.and_eq_true, beq_iff_eq]
  constructor
  · rintro ⟨same, ends⟩
    exact ⟨_, _, (List.take_append_drop _ _).symm, same, ends⟩
  · rintro ⟨word, rest, rfl, same, ends⟩
    have length := congrArg List.length same
    rw [List.length_map] at length
    rw [← length, List.take_left, List.drop_left]
    exact ⟨same, ends⟩

/-- No keyword is the beginning of another one, so a text begins with one keyword at most. -/
theorem keyword_unique {first second : String × StatementKind}
    (own : first ∈ keywords) (other : second ∈ keywords)
    (starts : startsWithKeyword text first.1) (also : startsWithKeyword text second.1) :
    first = second := by
  have apart : ∀ first ∈ keywords, ∀ second ∈ keywords,
      first.1.toList <+: second.1.toList → first = second := by decide
  have begins {keyword : String} (starts : startsWithKeyword text keyword) :
      keyword.toList <+: text.map Char.toUpper := by
    rcases startsWithKeyword_iff.1 starts with ⟨word, rest, rfl, same, -⟩
    rw [← same, List.map_append]
    exact List.prefix_append _ _
  rcases List.prefix_or_prefix_of_prefix (begins starts) (begins also) with shorter | longer
  · exact apart _ own _ other shorter
  · exact (apart _ other _ own longer).symm

/-- The kind is that of the keyword behind what is passed over. -/
theorem ofSql_eq_iff (known : kind ≠ .other) :
    ofSql sql = kind ↔
      ∃ front word rest, sql.toList = front ++ word ++ rest ∧ Skips front ∧ Spells word kind ∧
        endsWord rest := by
  constructor
  · intro found
    rw [ofSql] at found
    cases first : keywords.find? fun entry => startsWithKeyword (withoutLead sql.toList) entry.1 with
    | none =>
        rw [first] at found
        exact absurd found.symm known
    | some entry =>
        rw [first] at found
        obtain rfl : entry.2 = kind := found
        have starts := List.find?_some first
        rcases startsWithKeyword_iff.1 starts with ⟨word, rest, remains, same, ends⟩
        have listed : (entry.1, entry.2) ∈ keywords := List.mem_of_find?_eq_some first
        have spells : Spells word entry.2 := ⟨entry.1, mem_keywords_iff.1 listed, same⟩
        rcases exists_skips sql.toList with empty | ⟨front, skips, parts⟩
        · rcases spells.exists_cons with ⟨c, more, rfl, -⟩
          cases remains.symm.trans empty
        · rw [remains, ← List.append_assoc] at parts
          exact ⟨front, word, rest, parts, skips, spells, ends⟩
  · rintro ⟨front, word, rest, parts, skips, spells, ends⟩
    have remains : withoutLead sql.toList = word ++ rest := by
      rcases spells.exists_cons with ⟨c, more, rfl, letter⟩
      rw [parts, List.append_assoc, withoutLead_append skips]
      exact withoutLead_of_isAlpha letter
    rcases spells with ⟨keyword, named, same⟩
    have listed : (keyword, kind) ∈ keywords := mem_keywords_iff.2 named
    have starts : startsWithKeyword (withoutLead sql.toList) keyword :=
      startsWithKeyword_iff.2 ⟨word, rest, remains, same, ends⟩
    rw [ofSql]
    cases first : keywords.find? fun entry => startsWithKeyword (withoutLead sql.toList) entry.1 with
    | none =>
        have refused := List.find?_eq_none.1 first _ listed
        exact absurd starts refused
    | some entry =>
        have begins := List.find?_some first
        obtain rfl := keyword_unique (List.mem_of_find?_eq_some first) listed begins starts
        rfl

/-- What is passed over has no influence on the kind. -/
theorem ofSql_append (skips : Skips front) (text : List Char) :
    ofSql (String.ofList (front ++ text)) = ofSql (String.ofList text) := by
  simp only [ofSql, String.toList_ofList, withoutLead_append skips]

/-! ## Beginnings of statements -/

/-- A part of what stands before the first keyword of a statement. -/
inductive LeadPiece where
  | blank (c : Char)
  | parenthesis
  | lineComment (line : List Char)
  | blockComment (body : List Char)
deriving DecidableEq, Repr

namespace LeadPiece

/-- How a piece is written. -/
def written : LeadPiece → List Char
  | .blank c => [c]
  | .parenthesis => ['(']
  | .lineComment line => '-' :: '-' :: line ++ ['\n']
  | .blockComment body => '/' :: '*' :: body ++ ['*', '/']

/-- The blanks of ASCII. -/
def asciiBlanks : List Char := [' ', '\t', '\n', '\x0b', '\x0c', '\r']

/-- The piece is what it looks like: its comment ends at its end and not before. -/
def WellFormed : LeadPiece → Prop
  | .blank c => c ∈ asciiBlanks
  | .parenthesis => True
  | .lineComment line => '\n' ∉ line
  | .blockComment body => ¬ ['*', '/'] <:+: body

/-- A comment whose text begins with a slash, right behind the star of its opening. -/
def ClosesAtOpening : LeadPiece → Prop
  | .blockComment body => body.head? = some '/'
  | _ => False

instance : DecidablePred WellFormed
  | .blank c => inferInstanceAs (Decidable (c ∈ asciiBlanks))
  | .parenthesis => inferInstanceAs (Decidable True)
  | .lineComment line => inferInstanceAs (Decidable ('\n' ∉ line))
  | .blockComment body => inferInstanceAs (Decidable (¬ ['*', '/'] <:+: body))

instance : DecidablePred ClosesAtOpening
  | .blank _ | .parenthesis | .lineComment _ => inferInstanceAs (Decidable False)
  | .blockComment body => inferInstanceAs (Decidable (body.head? = some '/'))

/-- A well-formed piece is passed over, unless its comment seems to end where it begins. -/
theorem skips_written {piece : LeadPiece} (wellFormed : piece.WellFormed)
    (opens : ¬ piece.ClosesAtOpening) : Skips piece.written := by
  cases piece with
  | blank c =>
      have blanks : asciiBlanks.all Text.isBlank = true := rfl
      exact .blank (List.all_eq_true.1 blanks c wellFormed) .nil
  | parenthesis => exact IsLead.parenthesis.skips
  | lineComment line => exact (IsLead.lineComment wellFormed).skips
  | blockComment body => exact (IsLead.blockComment opens wellFormed).skips

end LeadPiece

theorem skips_pieces {pieces : List LeadPiece}
    (each : ∀ piece ∈ pieces, piece.WellFormed ∧ ¬ piece.ClosesAtOpening) :
    Skips (pieces.flatMap LeadPiece.written) := by
  induction pieces with
  | nil => exact .nil
  | cons piece pieces step =>
      rw [List.forall_mem_cons] at each
      exact (LeadPiece.skips_written each.1.1 each.1.2).append (step each.2)

/--
The search for the kind of a statement ends without a cut inside a character.
It finds the kind whose keyword comes after blanks, comments and parentheses.
Every sequence of them is passed over in which no comment between `/*` and `*/`
begins with a slash; of one that does, only the opening and this slash are.
-/
theorem statement_kind_behind_leads (sql : String) :
    (∀ rounds, sql.length < rounds → slicedKind? rounds sql = some (ofSql sql)) ∧
      (∀ kind, kind ≠ .other →
        (ofSql sql = kind ↔
          ∃ front word rest, sql.toList = front ++ word ++ rest ∧ Skips front ∧
            Spells word kind ∧ endsWord rest)) ∧
      (∀ (pieces : List LeadPiece) (word rest : List Char) (kind : StatementKind),
        sql.toList = pieces.flatMap LeadPiece.written ++ word ++ rest →
          (∀ piece ∈ pieces, piece.WellFormed ∧ ¬ piece.ClosesAtOpening) →
            Spells word kind → endsWord rest → ofSql sql = kind) ∧
      ∀ front body rest, Skips front →
        sql.toList = front ++ (LeadPiece.blockComment ('/' :: body)).written ++ rest →
          ofSql sql = ofSql (String.ofList (body ++ ['*', '/'] ++ rest)) := by
  refine ⟨fun rounds => slicedKind?_eq, fun kind => ofSql_eq_iff, ?_, ?_⟩
  · intro pieces word rest kind written each spells ends
    refine (ofSql_eq_iff ?_).2 ⟨_, word, rest, written, skips_pieces each, spells, ends⟩
    rintro rfl
    rcases spells with ⟨keyword, named, -⟩
    cases named
  · intro front body rest skips written
    have closing : sql.toList = front ++ (['/', '*', '/'] ++ (body ++ ['*', '/'] ++ rest)) := by
      simpa [LeadPiece.written] using written
    rw [← String.ofList_toList (s := sql), closing, ofSql_append skips,
      ofSql_append IsLead.sharedStar.skips]

/-- What stands before the keyword of a statement with a note and a comment. -/
def notedLeads : List LeadPiece :=
  [.lineComment " note; */".toList, .blockComment " x * / ".toList, .blank '\t', .parenthesis]

theorem statement_kind_behind_leads_notedSelect :
    (∀ piece ∈ notedLeads, piece.WellFormed ∧ ¬ piece.ClosesAtOpening) ∧
      Spells "sElect".toList .select ∧ endsWord "(1)".toList ∧
      ofSql "-- note; */\n/* x * / */\t(sElect(1)" = .select := by
  have each : ∀ piece ∈ notedLeads, piece.WellFormed ∧ ¬ piece.ClosesAtOpening := by decide
  have spells : Spells "sElect".toList .select := ⟨"SELECT", by decide, by decide⟩
  have ends : endsWord "(1)".toList := by decide
  have written : "-- note; */\n/* x * / */\t(sElect(1)".toList =
      notedLeads.flatMap LeadPiece.written ++ "sElect".toList ++ "(1)".toList := by
    rfl
  have found := (statement_kind_behind_leads "-- note; */\n/* x * / */\t(sElect(1)").2.2.1
    notedLeads _ _ _ written each spells ends
  exact ⟨each, spells, ends, found⟩

/-- A comment that begins with a slash hides the keyword behind it. -/
theorem statement_kind_missed_slashComment :
    (LeadPiece.blockComment "/ x ".toList).WellFormed ∧ Spells "SELECT".toList .select ∧
      endsWord " 1".toList ∧
      (LeadPiece.blockComment "/ x ".toList).written ++ "SELECT".toList ++ " 1".toList =
        "/*/ x */SELECT 1".toList ∧
      ofSql "/*/ x */SELECT 1" = .other := by
  have spells : Spells "SELECT".toList .select := ⟨"SELECT", by decide, by decide⟩
  exact ⟨by decide, spells, by decide, by decide, by cbv⟩

end StatementKind

end SqlScribe
