/-!
# Cutting texts at a character

`splitAt mark text` cuts a text at every occurrence of a character, so a text
with `n` marks has `n + 1` pieces, empty ones included.  `joined_splitAt` says
that nothing is lost: joining the pieces with the mark gives the text back.
-/

namespace SqlScribe.Text

/-- The pieces between the occurrences of `mark`; there is always at least one. -/
def splitAt (mark : Char) : List Char → List (List Char)
  | [] => [[]]
  | c :: rest =>
      if c = mark then [] :: splitAt mark rest
      else
        match splitAt mark rest with
        | [] => [[c]]
        | piece :: pieces => (c :: piece) :: pieces

/-- The pieces one after another, with `separator` between neighbours. -/
def joinWith (separator : List Char) : List (List Char) → List Char
  | [] => []
  | [piece] => piece
  | piece :: next :: rest => piece ++ separator ++ joinWith separator (next :: rest)

theorem splitAt_ne_nil (mark : Char) (text : List Char) : splitAt mark text ≠ [] := by
  cases text with
  | nil => simp [splitAt]
  | cons c rest =>
      by_cases h : c = mark
      · simp [splitAt, h]
      · simp only [splitAt, h, if_false]
        split <;> simp

theorem joinWith_cons_of_ne_nil
    (separator piece : List Char) {rest : List (List Char)} (nonempty : rest ≠ []) :
    joinWith separator (piece :: rest) = piece ++ separator ++ joinWith separator rest := by
  cases rest with
  | nil => exact absurd rfl nonempty
  | cons next rest => rfl

/-- Joining the pieces with the mark gives the text back. -/
theorem joined_splitAt (mark : Char) (text : List Char) :
    joinWith [mark] (splitAt mark text) = text := by
  induction text with
  | nil => rfl
  | cons c rest step =>
      by_cases h : c = mark
      · subst h
        simp [splitAt, joinWith_cons_of_ne_nil _ _ (splitAt_ne_nil c rest), step]
      · simp only [splitAt, h, if_false]
        split
        · rename_i none
          exact absurd none (splitAt_ne_nil mark rest)
        · rename_i piece pieces pattern
          rw [pattern] at step
          cases pieces with
          | nil => simpa [joinWith] using step
          | cons next more => simpa [joinWith] using step

/-- The text before and after the first occurrence of `mark`, if there is one. -/
def splitOnce? (mark : Char) : List Char → Option (List Char × List Char)
  | [] => none
  | c :: rest =>
      if c = mark then some ([], rest)
      else (splitOnce? mark rest).map fun (before, after) => (c :: before, after)

/-- The text after the first occurrence of `pattern`, if there is one. -/
def after? (pattern : List Char) : List Char → Option (List Char)
  | [] => if pattern.isEmpty then some [] else none
  | text@(_ :: rest) =>
      if pattern.isPrefixOf text then some (text.drop pattern.length) else after? pattern rest

end SqlScribe.Text
