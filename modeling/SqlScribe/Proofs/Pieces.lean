import Mathlib.Data.List.Infix
import SqlScribe.Text.Split

/-!
# Pieces between marks

Cutting a text at a mark and joining pieces with it are inverse to each other
as long as no piece holds the mark: `joined_splitAt` and `splitAt_joinWith_of_free`
are the two directions.  A piece is empty exactly where a mark stands at an end
of the text or next to another one.
-/

namespace SqlScribe.Text

variable {mark : Char} {text piece : List Char}

/-! ## One text -/

/-- A text without the mark is its own only piece. -/
theorem splitAt_of_not_mem (absent : mark ∉ text) : splitAt mark text = [text] := by
  induction text with
  | nil => rfl
  | cons c rest step =>
      have different : c ≠ mark := fun same => absent (same ▸ List.mem_cons_self)
      have others := step fun later => absent (List.mem_cons_of_mem _ later)
      rw [splitAt, if_neg different, others]

/-- A mark in a text separates the pieces before it from those after it. -/
theorem splitAt_append_mark (before after : List Char) :
    splitAt mark (before ++ mark :: after) = splitAt mark before ++ splitAt mark after := by
  induction before with
  | nil => simp [splitAt]
  | cons c rest step =>
      rw [List.cons_append, splitAt, splitAt, step]
      split
      · rfl
      · rcases pieces : splitAt mark rest with _ | ⟨piece, others⟩
        · exact absurd pieces (splitAt_ne_nil mark rest)
        · rfl

theorem splitAt_append {before : List Char} (absent : mark ∉ before) (after : List Char) :
    splitAt mark (before ++ mark :: after) = before :: splitAt mark after := by
  rw [splitAt_append_mark, splitAt_of_not_mem absent]
  rfl

theorem splitOnce?_append {before : List Char} (absent : mark ∉ before) (after : List Char) :
    splitOnce? mark (before ++ mark :: after) = some (before, after) := by
  induction before with
  | nil => rw [List.nil_append, splitOnce?, if_pos rfl]
  | cons c rest step =>
      have different : c ≠ mark := fun same => absent (same ▸ List.mem_cons_self)
      have others := step fun later => absent (List.mem_cons_of_mem _ later)
      rw [List.cons_append, splitOnce?, if_neg different, others]
      rfl

/-- A text is cut where the mark occurs first. -/
theorem splitOnce?_eq_some {before after : List Char} :
    splitOnce? mark text = some (before, after) ↔
      text = before ++ mark :: after ∧ mark ∉ before := by
  constructor
  · intro found
    induction text generalizing before with
    | nil => cases found
    | cons c rest step =>
        rw [splitOnce?] at found
        split at found
        · rename_i same
          cases found
          exact ⟨by rw [same]; rfl, List.not_mem_nil⟩
        · rename_i different
          rcases Option.map_eq_some_iff.1 found with ⟨⟨front, back⟩, inside, same⟩
          cases same
          rcases step inside with ⟨rfl, absent⟩
          exact ⟨rfl, List.not_mem_cons_of_ne_of_not_mem (Ne.symm different) absent⟩
  · rintro ⟨rfl, absent⟩
    exact splitOnce?_append absent after

theorem splitOnce?_eq_none : splitOnce? mark text = none ↔ mark ∉ text := by
  constructor
  · intro missing member
    rcases List.eq_append_cons_of_mem member with ⟨before, after, rfl, absent⟩
    rw [splitOnce?_append absent] at missing
    cases missing
  · intro absent
    rw [Option.eq_none_iff_forall_not_mem]
    rintro ⟨before, after⟩ found
    refine absent ?_
    rw [(splitOnce?_eq_some.1 found).1]
    exact List.mem_append_right _ List.mem_cons_self

/-- The first piece of a text and the others. -/
theorem exists_splitAt_eq_cons (mark : Char) (text : List Char) :
    ∃ piece others, splitAt mark text = piece :: others :=
  List.exists_cons_of_ne_nil (splitAt_ne_nil mark text)

theorem splitAt_cons_mark (rest : List Char) :
    splitAt mark (mark :: rest) = [] :: splitAt mark rest := by
  rw [splitAt, if_pos rfl]

/-- Any other character belongs to the first piece. -/
theorem splitAt_cons_of_ne
    {c : Char} {rest : List Char} {others : List (List Char)}
    (different : c ≠ mark) (pieces : splitAt mark rest = piece :: others) :
    splitAt mark (c :: rest) = (c :: piece) :: others := by
  rw [splitAt, if_neg different, pieces]

/-- What holds no mark belongs to the first piece of what comes after it. -/
theorem splitAt_append_of_free
    {before : List Char} {others : List (List Char)}
    (free : mark ∉ before) (pieces : splitAt mark text = piece :: others) :
    splitAt mark (before ++ text) = (before ++ piece) :: others := by
  induction before with
  | nil => exact pieces
  | cons c rest step =>
      have different : c ≠ mark := fun same => free (same ▸ List.mem_cons_self)
      have later := step fun member => free (List.mem_cons_of_mem _ member)
      exact splitAt_cons_of_ne different later

theorem mem_joinWith_of_mem
    {separator : List Char} {pieces : List (List Char)} {c : Char}
    (found : piece ∈ pieces) (member : c ∈ piece) : c ∈ joinWith separator pieces := by
  induction pieces with
  | nil => cases found
  | cons first rest step =>
      by_cases last : rest = []
      · subst last
        obtain rfl : piece = first := List.mem_singleton.1 found
        exact member
      · rw [joinWith_cons_of_ne_nil _ _ last]
        rcases List.mem_cons.1 found with rfl | later
        · exact List.mem_append_left _ (List.mem_append_left _ member)
        · exact List.mem_append_right _ (step later)

/-- The characters of a piece are characters of the text. -/
theorem mem_of_mem_splitAt {c : Char} (found : piece ∈ splitAt mark text) (member : c ∈ piece) :
    c ∈ text := by
  rw [← joined_splitAt mark text]
  exact mem_joinWith_of_mem found member

/-! ## Empty pieces -/

theorem first_eq_nil_iff
    {others : List (List Char)} (pieces : splitAt mark text = piece :: others) :
    piece = [] ↔ text = [] ∨ [mark] <+: text := by
  cases text with
  | nil =>
      cases pieces
      simp
  | cons c rest =>
      by_cases same : c = mark
      · subst same
        rw [splitAt_cons_mark] at pieces
        cases pieces
        simp
      · rcases exists_splitAt_eq_cons mark rest with ⟨first, more, later⟩
        rw [splitAt_cons_of_ne same later] at pieces
        cases pieces
        simp [List.cons_prefix_cons, Ne.symm same]

/-- A later piece is empty where a mark ends the text or follows another one. -/
theorem nil_mem_others_iff
    {others : List (List Char)} (pieces : splitAt mark text = piece :: others) :
    [] ∈ others ↔ [mark] <:+ text ∨ [mark, mark] <:+: text := by
  induction text generalizing piece others with
  | nil =>
      cases pieces
      simp
  | cons c rest step =>
      rcases exists_splitAt_eq_cons mark rest with ⟨first, more, later⟩
      rw [List.suffix_cons_iff, List.infix_cons_iff, List.cons_prefix_cons]
      by_cases same : c = mark
      · subst same
        rw [splitAt_cons_mark, later] at pieces
        cases pieces
        rw [List.mem_cons, step later, eq_comm, first_eq_nil_iff later]
        have alone : ([c] = c :: rest) ↔ rest = [] := by simp [eq_comm]
        rw [alone]
        tauto
      · rw [splitAt_cons_of_ne same later] at pieces
        cases pieces
        rw [step later]
        simp [Ne.symm same]

/-- A piece is empty where a mark stands at an end of the text or next to another one. -/
theorem nil_mem_splitAt_iff :
    [] ∈ splitAt mark text ↔
      text = [] ∨ [mark] <+: text ∨ [mark] <:+ text ∨ [mark, mark] <:+: text := by
  rcases exists_splitAt_eq_cons mark text with ⟨first, others, pieces⟩
  rw [pieces, List.mem_cons, eq_comm, first_eq_nil_iff pieces, nil_mem_others_iff pieces, or_assoc]

/-! ## Several texts -/

/-- The pieces of texts that were joined are those of each text. -/
theorem splitAt_joinWith {texts : List (List Char)} (nonempty : texts ≠ []) :
    splitAt mark (joinWith [mark] texts) = texts.flatMap (splitAt mark) := by
  induction texts with
  | nil => exact absurd rfl nonempty
  | cons text rest step =>
      rcases rest with _ | ⟨next, others⟩
      · simp [joinWith]
      · have later := step (List.cons_ne_nil next others)
        rw [joinWith_cons_of_ne_nil _ _ (List.cons_ne_nil next others), List.append_assoc,
          List.singleton_append, splitAt_append_mark, later]
        rfl

theorem length_splitAt_pos (mark : Char) (text : List Char) : 0 < (splitAt mark text).length :=
  List.length_pos_iff.2 (splitAt_ne_nil mark text)

theorem length_splitAt_eq_one_iff : (splitAt mark text).length = 1 ↔ mark ∉ text := by
  constructor
  · intro single member
    rcases List.append_of_mem member with ⟨before, after, rfl⟩
    have front := length_splitAt_pos mark before
    have back := length_splitAt_pos mark after
    rw [splitAt_append_mark, List.length_append] at single
    omega
  · intro absent
    rw [splitAt_of_not_mem absent]
    rfl

theorem length_le_length_pieces (mark : Char) (texts : List (List Char)) :
    texts.length ≤ (texts.flatMap (splitAt mark)).length := by
  induction texts with
  | nil => exact Nat.le_refl _
  | cons text rest step =>
      have own := length_splitAt_pos mark text
      rw [List.flatMap_cons, List.length_append, List.length_cons]
      omega

/-- Texts have as many pieces as there are texts exactly if no text holds the mark. -/
theorem length_pieces_eq_iff {texts : List (List Char)} :
    (texts.flatMap (splitAt mark)).length = texts.length ↔ ∀ text ∈ texts, mark ∉ text := by
  induction texts with
  | nil => simp
  | cons text rest step =>
      have own := length_splitAt_pos mark text
      have others := length_le_length_pieces mark rest
      rw [List.flatMap_cons, List.length_append, List.length_cons, List.forall_mem_cons, ← step,
        ← length_splitAt_eq_one_iff]
      omega

/-- Texts that do not hold the mark are the pieces of the text that they are joined to. -/
theorem splitAt_joinWith_of_free {texts : List (List Char)} (nonempty : texts ≠ [])
    (free : ∀ text ∈ texts, mark ∉ text) : splitAt mark (joinWith [mark] texts) = texts := by
  rw [splitAt_joinWith nonempty, List.flatMap_congr fun text member =>
    splitAt_of_not_mem (free text member)]
  exact List.flatMap_singleton' texts

end SqlScribe.Text
