import SqlScribe.Text.Blank
import SqlScribe.Text.Split

/-!
# The kind of a statement

For events a statement's text is classified by its first keyword, after blanks,
comments and opening parentheses.  Each step over such a beginning shortens the
text, so the search for the keyword ends.
-/

namespace SqlScribe

/-- What a statement begins with. -/
inductive StatementKind where
  | select
  | insert
  | update
  | delete
  | create
  | alter
  | drop
  | other
deriving DecidableEq, Repr, Inhabited

namespace StatementKind

/-- The name of a kind. -/
def name : StatementKind → String
  | .select => "Select"
  | .insert => "Insert"
  | .update => "Update"
  | .delete => "Delete"
  | .create => "Create"
  | .alter => "Alter"
  | .drop => "Drop"
  | .other => "Other"

/-- The keywords that decide the kind. -/
def keywords : List (String × StatementKind) :=
  [("SELECT", .select), ("INSERT", .insert), ("UPDATE", .update), ("DELETE", .delete),
    ("CREATE", .create), ("ALTER", .alter), ("DROP", .drop)]

/-- A beginning of a text that has nothing to do with its kind. -/
inductive Lead where
  /-- The text goes on with `rest`. -/
  | skipped (rest : List Char)
  /-- A comment runs to the end of the text. -/
  | unclosed
  /-- The text begins with something else. -/
  | none

/--
Looks for a comment or an opening parenthesis at the beginning of a text.  A
line comment ends with its line.  A block comment ends at the first `*/`, which
may share its star with the opening.
-/
def lead (text : List Char) : Lead :=
  match text with
  | '-' :: '-' :: comment =>
      match comment.dropWhile (· != '\n') with
      | [] => .unclosed
      | _ :: rest => .skipped rest
  | '/' :: '*' :: comment =>
      match Text.after? ['*', '/'] ('*' :: comment) with
      | some rest => .skipped rest
      | none => .unclosed
  | '(' :: rest => .skipped rest
  | _ => .none

theorem length_dropWhile_le (test : Char → Bool) (text : List Char) :
    (text.dropWhile test).length ≤ text.length :=
  (List.dropWhile_suffix test).length_le

theorem length_of_after? {pattern text rest : List Char}
    (nonempty : pattern ≠ []) (found : Text.after? pattern text = some rest) :
    rest.length < text.length := by
  have long : 0 < pattern.length := List.length_pos_iff.mpr nonempty
  induction text with
  | nil =>
      cases pattern with
      | nil => exact absurd rfl nonempty
      | cons c more => simp [Text.after?] at found
  | cons c more step =>
      unfold Text.after? at found
      split at found
      · injection found with equal
        subst equal
        simp only [List.length_drop, List.length_cons]
        omega
      · have shorter := step found
        simp only [List.length_cons]
        omega

theorem length_of_lead {text rest : List Char} (found : lead text = .skipped rest) :
    rest.length < text.length := by
  unfold lead at found
  split at found
  · rename_i comment
    split at found
    · cases found
    · rename_i first after pattern
      injection found with equal
      subst equal
      have bound := length_dropWhile_le (· != '\n') comment
      rw [pattern] at bound
      simp only [List.length_cons] at bound ⊢
      omega
  · split at found
    · rename_i comment after pattern
      injection found with equal
      subst equal
      have bound := length_of_after? (by simp) pattern
      simp only [List.length_cons] at bound ⊢
      omega
    · cases found
  · injection found with equal
    subst equal
    simp
  · cases found

/-- The text without the blanks, comments and opening parentheses at its beginning. -/
def withoutLead (text : List Char) : List Char :=
  let trimmed := Text.trimStart text
  match _found : lead trimmed with
  | .skipped rest => withoutLead rest
  | .unclosed => []
  | .none => trimmed
termination_by text.length
decreasing_by
  have shorter := length_of_lead _found
  have trimmedLength := length_dropWhile_le Text.isBlank text
  simp only [trimmed, Text.trimStart] at shorter ⊢
  omega

/-- Whether a text begins with a keyword, in any letter case, that ends there. -/
def startsWithKeyword (text : List Char) (keyword : String) : Bool :=
  let letters := keyword.toList
  let head := text.take letters.length
  head.map Char.toUpper == letters &&
    match text.drop letters.length with
    | [] => true
    | next :: _ => !(next.isAlphanum || next == '_')

/-- The kind of a statement's text. -/
def ofSql (sql : String) : StatementKind :=
  let text := withoutLead sql.toList
  ((keywords.find? fun entry => startsWithKeyword text entry.1).map Prod.snd).getD .other

end StatementKind

end SqlScribe
