import Mathlib
import SqlScribe.StatementKind
import SqlScribe.Text.Bytes

/-!
# Scanning by byte offsets

A scanner that keeps a text in UTF-8 finds a pattern at a byte offset, and cuts
the text at an offset.  This fails if the offset is inside a character or behind
the end: `Text.cut?`.

`slicedKind?` looks for the kind of a statement in this way, round by round.  It
fails where a cut does, and where it runs out of rounds.  `slicedKind?_eq` says
that this never happens, and that the kind is the one that `ofSql` finds.
-/

namespace SqlScribe

/-! ## Offsets -/

namespace Text

variable {pattern text front back : List Char} {offset : Nat}

/-- The byte offset at which a pattern occurs first. -/
def offsetOf? (pattern : List Char) : List Char → Option Nat
  | [] => if pattern.isEmpty then some 0 else none
  | c :: rest =>
      if pattern.isPrefixOf (c :: rest) then some 0
      else (offsetOf? pattern rest).map (c.utf8Size + ·)

/-- The text before and from a byte offset, which has to be between two characters. -/
def cut? (offset : Nat) : List Char → Option (List Char × List Char)
  | [] => if offset = 0 then some ([], []) else none
  | c :: rest =>
      if offset = 0 then some ([], c :: rest)
      else if c.utf8Size ≤ offset then
        (cut? (offset - c.utf8Size) rest).map fun parts => (c :: parts.1, parts.2)
      else none

theorem cut?_append (front back : List Char) :
    cut? (byteLength front) (front ++ back) = some (front, back) := by
  induction front with
  | nil => cases back <;> rfl
  | cons c front step =>
      have size := c.utf8Size_pos
      have nonzero : byteLength (c :: front) ≠ 0 := by
        rw [byteLength_cons]
        omega
      have fits : c.utf8Size ≤ byteLength (c :: front) := Nat.le_add_right _ _
      have others : byteLength (c :: front) - c.utf8Size = byteLength front :=
        Nat.add_sub_cancel_left _ _
      rw [List.cons_append, cut?, if_neg nonzero, if_pos fits, others, step]
      rfl

/-- A text can be cut at the length of each of its beginnings, and nowhere else. -/
theorem cut?_eq_some :
    cut? offset text = some (front, back) ↔ text = front ++ back ∧ byteLength front = offset := by
  constructor
  · intro cut
    induction text generalizing offset front with
    | nil =>
        rw [cut?] at cut
        split at cut
        · cases cut
          exact ⟨rfl, ‹offset = 0›.symm⟩
        · cases cut
    | cons c rest step =>
        rw [cut?] at cut
        split at cut
        · cases cut
          exact ⟨rfl, ‹offset = 0›.symm⟩
        · split at cut
          · rename_i fits
            rcases Option.map_eq_some_iff.1 cut with ⟨⟨others, _⟩, later, same⟩
            cases same
            rcases step later with ⟨rfl, length⟩
            refine ⟨rfl, ?_⟩
            rw [byteLength_cons, length]
            omega
          · cases cut
  · rintro ⟨rfl, rfl⟩
    exact cut?_append front back

/-- What comes after a pattern is cut off at the offset of the pattern and its length. -/
theorem after?_eq_cut (nonempty : pattern ≠ []) (found : offsetOf? pattern text = some offset) :
    ∃ front back, cut? (offset + byteLength pattern) text = some (front, back) ∧
      after? pattern text = some back := by
  induction text generalizing offset with
  | nil => simp [offsetOf?, nonempty] at found
  | cons c rest step =>
      rw [offsetOf?] at found
      rw [after?]
      split at found
      · rename_i begins
        cases found
        obtain ⟨back, same⟩ := List.isPrefixOf_iff_prefix.1 begins
        rw [if_pos begins, ← same, List.drop_left, Nat.zero_add]
        exact ⟨pattern, back, cut?_append pattern back, rfl⟩
      · rename_i begins
        rcases Option.map_eq_some_iff.1 found with ⟨later, inside, rfl⟩
        rcases step inside with ⟨front, back, cut, after⟩
        rcases cut?_eq_some.1 cut with ⟨rfl, length⟩
        rw [if_neg begins]
        refine ⟨c :: front, back, cut?_eq_some.2 ⟨rfl, ?_⟩, after⟩
        rw [byteLength_cons, length]
        omega

theorem after?_eq_none (nonempty : pattern ≠ []) (missing : offsetOf? pattern text = none) :
    after? pattern text = none := by
  induction text with
  | nil => simp [after?, nonempty]
  | cons c rest step =>
      rw [offsetOf?] at missing
      rw [after?]
      split at missing
      · cases missing
      · rename_i begins
        rw [if_neg begins]
        exact step (Option.map_eq_none_iff.1 missing)

theorem utf8Size_toUpper (c : Char) : c.toUpper.utf8Size = c.utf8Size := by
  unfold Char.toUpper
  split
  · rename_i lower
    have one : c.utf8Size = 1 := Char.utf8Size_eq_one_iff.2 (by grind)
    rw [one, Char.utf8Size_eq_one_iff]
    grind
  · rfl

/-- Upper case takes as many bytes as lower case. -/
theorem byteLength_map_toUpper (text : List Char) :
    byteLength (text.map Char.toUpper) = byteLength text := by
  induction text with
  | nil => rfl
  | cons c rest step => rw [List.map_cons, byteLength_cons, byteLength_cons, utf8Size_toUpper, step]

end Text

namespace StatementKind

/-! ## The scanner -/

/-- What follows the end of a comment, cut off behind the offset of the end. -/
def slicedBehind? (ending text : List Char) : Option Lead :=
  match Text.offsetOf? ending text with
  | none => some .unclosed
  | some offset =>
      (Text.cut? (offset + Text.byteLength ending) text).map fun parts => .skipped parts.2

/-- The beginning of a text; the end of a comment is looked for from its first character on. -/
def slicedLead? (text : List Char) : Option Lead :=
  if ['-', '-'].isPrefixOf text then slicedBehind? ['\n'] text
  else if ['/', '*'].isPrefixOf text then slicedBehind? ['*', '/'] text
  else
    match text with
    | '(' :: rest => some (.skipped rest)
    | _ => some .none

/-- The text that remains when a round changes nothing more. -/
def slicedScan? : Nat → List Char → Option (List Char)
  | 0, _ => none
  | rounds + 1, before =>
      let text := Text.trimStart before
      (slicedLead? text).bind fun
        | .skipped rest => slicedScan? rounds rest
        | .unclosed => some []
        | .none => if text = before then some text else slicedScan? rounds text

/-- Nothing that could continue a keyword comes next. -/
def endsWord : List Char → Bool
  | [] => true
  | next :: _ => !(next.isAlphanum || next == '_')

/-- Whether a text begins with a keyword, compared with as many bytes if there are so many. -/
def slicedKeyword? (text : List Char) (keyword : String) : Option Bool :=
  let size := Text.byteLength keyword.toList
  match Text.cut? size text with
  | none => some false
  | some (head, _) =>
      if head.map Char.toUpper = keyword.toList then
        (Text.cut? size text).map fun parts => endsWord parts.2
      else some false

/-- The kind of a statement's text, if no cut fails and the rounds suffice. -/
def slicedKind? (rounds : Nat) (sql : String) : Option StatementKind := do
  let text ← slicedScan? rounds sql.toList
  let found ← keywords.findM? fun entry => slicedKeyword? text entry.1
  pure ((found.map Prod.snd).getD .other)

/-! ## What it finds -/

/-- What follows the end of a comment, if it has one. -/
def leadBehind (ending text : List Char) : Lead :=
  match Text.after? ending text with
  | some rest => .skipped rest
  | none => .unclosed

variable {text rest : List Char}

theorem leadBehind_eq_skipped {ending : List Char} :
    leadBehind ending text = .skipped rest ↔ Text.after? ending text = some rest := by
  unfold leadBehind
  cases Text.after? ending text <;> simp

theorem slicedBehind?_eq {ending : List Char} (nonempty : ending ≠ []) (text : List Char) :
    slicedBehind? ending text = some (leadBehind ending text) := by
  unfold slicedBehind? leadBehind
  split
  · rename_i missing
    rw [Text.after?_eq_none nonempty missing]
  · rename_i offset found
    rcases Text.after?_eq_cut nonempty found with ⟨front, back, cut, after⟩
    rw [cut, after]
    rfl

theorem after?_newline (text : List Char) :
    Text.after? ['\n'] text =
      match text.dropWhile (· != '\n') with
      | [] => none
      | _ :: rest => some rest := by
  induction text with
  | nil => rfl
  | cons c rest step =>
      rw [Text.after?, List.dropWhile_cons]
      by_cases newline : c = '\n'
      · subst newline
        rfl
      · have other : ('\n' == c) = false := beq_eq_false_iff_ne.2 (Ne.symm newline)
        simp [List.isPrefixOf, other, newline, step]

theorem lead_lineComment (comment : List Char) :
    lead ('-' :: '-' :: comment) = leadBehind ['\n'] comment := by
  rw [leadBehind, after?_newline, lead]
  cases comment.dropWhile (· != '\n') <;> rfl

/-- The end of a comment is looked for from the star of its opening on. -/
theorem lead_blockComment (comment : List Char) :
    lead ('/' :: '*' :: comment) = leadBehind ['*', '/'] ('*' :: comment) :=
  rfl

theorem slicedLead?_eq (text : List Char) : slicedLead? text = some (lead text) := by
  unfold slicedLead?
  split
  · rename_i dashes
    obtain ⟨comment, rfl⟩ := List.isPrefixOf_iff_prefix.1 dashes
    rw [slicedBehind?_eq (by simp)]
    exact congrArg some (lead_lineComment comment).symm
  · split
    · rename_i opening
      obtain ⟨comment, rfl⟩ := List.isPrefixOf_iff_prefix.1 opening
      rw [slicedBehind?_eq (by simp)]
      exact congrArg some (lead_blockComment comment).symm
    · rename_i line block
      split
      · rfl
      · rename_i parenthesis
        unfold lead
        split
        · exact absurd (by simp [List.isPrefixOf]) line
        · exact absurd (by simp [List.isPrefixOf]) block
        · exact absurd rfl (parenthesis _)
        · rfl

theorem withoutLead_of_skipped (found : lead (Text.trimStart text) = .skipped rest) :
    withoutLead text = withoutLead rest := by
  rw [withoutLead]
  split
  · rename_i other same
    cases found.symm.trans same
    rfl
  · cases found.symm.trans ‹_›
  · cases found.symm.trans ‹_›

theorem withoutLead_of_unclosed (found : lead (Text.trimStart text) = .unclosed) :
    withoutLead text = [] := by
  rw [withoutLead]
  split
  · cases found.symm.trans ‹_›
  · rfl
  · cases found.symm.trans ‹_›

theorem withoutLead_of_none (found : lead (Text.trimStart text) = .none) :
    withoutLead text = Text.trimStart text := by
  rw [withoutLead]
  split
  · cases found.symm.trans ‹_›
  · cases found.symm.trans ‹_›
  · rfl

theorem trimStart_trimStart (text : List Char) :
    Text.trimStart (Text.trimStart text) = Text.trimStart text :=
  List.dropWhile_idempotent Text.isBlank text

/-- Each round that is not the last one makes the text shorter. -/
theorem slicedScan?_eq {rounds : Nat} (enough : text.length < rounds) :
    slicedScan? rounds text = some (withoutLead text) := by
  induction rounds generalizing text with
  | zero => exact absurd enough (Nat.not_lt_zero _)
  | succ rounds step =>
      have trimmed : Text.trimStart text <:+ text := List.dropWhile_suffix Text.isBlank
      have bound := trimmed.length_le
      rw [slicedScan?, slicedLead?_eq, Option.bind_some]
      cases found : lead (Text.trimStart text) with
      | skipped rest =>
          have shorter := length_of_lead found
          rw [withoutLead_of_skipped found]
          exact step (by omega)
      | unclosed => rw [withoutLead_of_unclosed found]
      | none =>
          rw [withoutLead_of_none found]
          show (if Text.trimStart text = text then _ else _) = _
          split
          · rfl
          · rename_i blanks
            have shorter : (Text.trimStart text).length ≠ text.length :=
              fun same => blanks (trimmed.eq_of_length same)
            rw [step (by omega), withoutLead_of_none (by rw [trimStart_trimStart, found]),
              trimStart_trimStart]

theorem startsWithKeyword_eq (text : List Char) (keyword : String) :
    startsWithKeyword text keyword =
      ((text.take keyword.toList.length).map Char.toUpper == keyword.toList &&
        endsWord (text.drop keyword.toList.length)) :=
  rfl

theorem slicedKeyword?_eq (text : List Char) (keyword : String) :
    slicedKeyword? text keyword = some (startsWithKeyword text keyword) := by
  have parts := List.take_append_drop keyword.toList.length text
  rw [startsWithKeyword_eq]
  by_cases begins : (text.take keyword.toList.length).map Char.toUpper = keyword.toList
  · have size := Text.byteLength_map_toUpper (text.take keyword.toList.length)
    rw [begins] at size
    have cut := Text.cut?_eq_some.2 ⟨parts.symm, size.symm⟩
    unfold slicedKeyword?
    simp [cut, begins]
  · have refused : ((text.take keyword.toList.length).map Char.toUpper == keyword.toList) = false :=
      beq_eq_false_iff_ne.2 begins
    rw [refused, Bool.false_and, slicedKeyword?]
    split
    · rfl
    · rename_i head rest cut
      rcases Text.cut?_eq_some.1 cut with ⟨rfl, -⟩
      refine if_neg fun matched => begins ?_
      have length := congrArg List.length matched
      rw [List.length_map] at length
      rw [← length, List.take_left, matched]

/-- More rounds than characters suffice, and no cut fails. -/
theorem slicedKind?_eq {rounds : Nat} {sql : String} (enough : sql.length < rounds) :
    slicedKind? rounds sql = some (ofSql sql) := by
  have found (text : List Char) :
      (keywords.findM? fun entry => slicedKeyword? text entry.1) =
        some (keywords.find? fun entry => startsWithKeyword text entry.1) := by
    simp only [slicedKeyword?_eq]
    exact List.findM?_pure _ _
  rw [slicedKind?, slicedScan?_eq (by rwa [String.length_toList])]
  simp [found, ofSql]

end StatementKind

end SqlScribe
