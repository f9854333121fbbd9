import Mathlib.Data.List.Infix
import SqlScribe.Escape

/-!
# Reading string literals

A database finds the end of a string literal while it reads it: a backslash
makes the next character a part of the text, two single quotes stand for one,
and any other single quote ends the literal.

`literalChar_cases` says how a character is written: either as itself, which it
then is for the reader too, or behind a backslash.  So no quote of a text ends
its literal, and reading gives the text back.
-/

namespace SqlScribe

namespace StringLiteral

/-! ## The reader -/

/-- What a character stands for that a backslash precedes. -/
def unescaped : Char → Char
  | '0' => '\x00'
  | 'b' => '\x08'
  | 't' => '\t'
  | 'n' => '\n'
  | 'r' => '\r'
  | 'Z' => '\x1a'
  | c => c

/-- A character before what was read of a text. -/
def prepend (c : Char) : Option (List Char × List Char) → Option (List Char × List Char) :=
  Option.map fun found => (c :: found.1, found.2)

/-- The text up to the quote that ends it, and what comes after this quote. -/
def readText : List Char → Option (List Char × List Char)
  | [] | ['\\'] => none
  | '\\' :: c :: rest => prepend (unescaped c) (readText rest)
  | '\x27' :: '\x27' :: rest => prepend '\x27' (readText rest)
  | '\x27' :: rest => some ([], rest)
  | c :: rest => prepend c (readText rest)

/-- The string that a literal at the beginning of a text stands for, and what comes after it. -/
def read : List Char → Option (String × List Char)
  | '\x27' :: rest => (readText rest).map fun found => (String.ofList found.1, found.2)
  | _ => none

variable {c : Char} {text rest : List Char}

theorem readText_escape (c : Char) (rest : List Char) :
    readText ('\\' :: c :: rest) = prepend (unescaped c) (readText rest) := by
  simp [readText]

theorem readText_plain (backslash : c ≠ '\\') (quote : c ≠ '\x27') (rest : List Char) :
    readText (c :: rest) = prepend c (readText rest) := by
  rw [readText] <;> simp_all

theorem readText_quote (single : rest.head? ≠ some '\x27') :
    readText ('\x27' :: rest) = some ([], rest) := by
  rw [readText]
  rintro others rfl
  exact single rfl

theorem readText_quotes (rest : List Char) :
    readText ('\x27' :: '\x27' :: rest) = prepend '\x27' (readText rest) := by
  simp [readText]

/-! ## What is written -/

/-- A character is written as itself, or behind a backslash that makes the reader find it. -/
theorem literalChar_cases (c : Char) :
    (literalChar c = [c] ∧ c ≠ '\\' ∧ c ≠ '\x27') ∨
      ∃ mark, literalChar c = ['\\', mark] ∧ unescaped mark = c := by
  unfold literalChar
  split
  case h_10 => exact .inl ⟨rfl, ‹_›, ‹_›⟩
  all_goals exact .inr ⟨_, rfl, rfl⟩

theorem readText_literalChar (c : Char) (rest : List Char) :
    readText (literalChar c ++ rest) = prepend c (readText rest) := by
  rcases literalChar_cases c with ⟨written, backslash, quote⟩ | ⟨mark, written, rfl⟩
  · rw [written]
    exact readText_plain backslash quote rest
  · rw [written]
    exact readText_escape mark rest

/-- The reader goes through a written text as if it were not there, and puts it before the rest. -/
theorem readText_append (text rest : List Char) :
    readText (text.flatMap literalChar ++ rest) =
      (readText rest).map fun found => (text ++ found.1, found.2) := by
  induction text with
  | nil => simp
  | cons c text step =>
      rw [List.flatMap_cons, List.append_assoc, readText_literalChar, step, prepend,
        Option.map_map]
      rfl

/-- No beginning of a written text ends the literal. -/
theorem readText_take (text : List Char) (count : Nat) :
    readText ((text.flatMap literalChar).take count) = none := by
  induction text generalizing count with
  | nil => simp [readText]
  | cons c text step =>
      rw [List.flatMap_cons]
      rcases Nat.lt_or_ge count (literalChar c).length with short | long
      · rw [List.take_append_of_le_length short.le]
        rcases literalChar_cases c with ⟨written, -⟩ | ⟨mark, written, -⟩
        all_goals
          rw [written] at short ⊢
          simp only [List.length_cons, List.length_nil] at short
        · obtain rfl : count = 0 := by omega
          rfl
        · obtain rfl | rfl : count = 0 ∨ count = 1 := by omega
          · rfl
          · rfl
      · rw [List.take_append, List.take_of_length_le long, readText_literalChar, step]
        rfl

/-! ## Literals -/

theorem read_stringLiteral (text rest : List Char) :
    read (stringLiteral text ++ rest) =
      (readText ('\x27' :: rest)).map fun found => (String.ofList (text ++ found.1), found.2) := by
  rw [stringLiteral, List.append_assoc, List.cons_append, read, readText_append, Option.map_map]
  rfl

/-- A literal is read as its text exactly if no other quote comes after it. -/
theorem read_stringLiteral_iff (text rest : List Char) :
    read (stringLiteral text ++ rest) = some (String.ofList text, rest) ↔
      rest.head? ≠ some '\x27' := by
  rw [read_stringLiteral]
  constructor
  · intro found quoted
    obtain ⟨others, rfl⟩ := List.head?_eq_some_iff.1 quoted
    rw [readText_quotes] at found
    cases inner : readText others with
    | none => simp [inner, prepend] at found
    | some more => simp [inner, prepend] at found
  · intro single
    rw [readText_quote single]
    simp

/-- A beginning of a literal is a literal only if it is the whole of it. -/
theorem read_take_isSome (text : List Char) (count : Nat) :
    (read ((stringLiteral text).take count)).isSome ↔ (stringLiteral text).length ≤ count := by
  have whole : (read (stringLiteral text)).isSome := by
    have found := (read_stringLiteral_iff text []).2 (by simp)
    rw [List.append_nil] at found
    rw [found]
    rfl
  rcases Nat.lt_or_ge count (stringLiteral text).length with short | long
  · have cut : read ((stringLiteral text).take count) = none := by
      rw [stringLiteral, List.length_append, List.length_singleton] at short
      rw [stringLiteral, List.take_append_of_le_length (Nat.le_of_lt_succ short)]
      cases count with
      | zero => rfl
      | succ count =>
          rw [List.take_succ_cons, read, readText_take]
          rfl
    rw [cut]
    simpa using short
  · rw [List.take_of_length_le long]
    exact iff_of_true whole long

end StringLiteral

open StringLiteral

/--
The literal of a string is read as this string, and nothing of what comes after
it is read, exactly if no other single quote comes after it.  No beginning of
the literal is a literal, and different strings have different literals.  The
literal of an object is that of its JSON text.
-/
theorem string_literals_read_back :
    (∀ (text : String) (rest : List Char),
      read ((Json.string text).literal ++ rest) = some (text, rest) ↔ rest.head? ≠ some '\x27') ∧
      (∀ (text : String) (count : Nat),
        (read ((Json.string text).literal.take count)).isSome ↔
          (Json.string text).literal.length ≤ count) ∧
      Function.Injective (fun text => (Json.string text).literal) ∧
      ∀ (members : List (String × Json)) (rest : List Char),
        read ((Json.object members).literal ++ rest) =
            some (Json.render (.object members), rest) ↔
          rest.head? ≠ some '\x27' := by
  have back (text : String) (rest : List Char) :
      read ((Json.string text).literal ++ rest) = some (text, rest) ↔
        rest.head? ≠ some '\x27' := by
    have found := read_stringLiteral_iff text.toList rest
    rw [String.ofList_toList] at found
    exact found
  refine ⟨back, fun text => read_take_isSome text.toList, fun first second same => ?_,
    fun members => read_stringLiteral_iff _⟩
  have own := (back first []).2 (by simp)
  have other := (back second []).2 (by simp)
  rw [List.append_nil] at own other
  exact congrArg Prod.fst (Option.some.inj (own.symm.trans ((congrArg read same).trans other)))

/-- A backslash before the closing quote is behind another one, so the quote closes. -/
example :
    read ((Json.string "it\x27s\\").literal ++ ", \x27x\x27".toList) =
      some ("it\x27s\\", ", \x27x\x27".toList) := by
  rfl

end SqlScribe
