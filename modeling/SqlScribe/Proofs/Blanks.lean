import Mathlib.Data.List.TakeWhile
import SqlScribe.Proofs.Identifier
import SqlScribe.Text.Blank

/-!
# Removal of blanks

Only blanks are taken off the ends of a text, and all of them: `isPadded_trim`
and `trim_of_isPadded`.  A reader that trims thus accepts its own forms with any
blanks around them.
-/

namespace SqlScribe.Text

variable {core text : List Char} {c : Char}

/-- The code points of white space. -/
def whiteSpace : List Nat :=
  [0x9, 0xA, 0xB, 0xC, 0xD, 0x20, 0x85, 0xA0, 0x1680, 0x2000, 0x2001, 0x2002, 0x2003, 0x2004,
    0x2005, 0x2006, 0x2007, 0x2008, 0x2009, 0x200A, 0x2028, 0x2029, 0x202F, 0x205F, 0x3000]

theorem isBlank_iff : isBlank c ↔ c.toNat ∈ whiteSpace := by
  simp [isBlank, whiteSpace]
  omega

/-- The text is `core` with white space before and after it. -/
def IsPadded (core text : List Char) : Prop :=
  ∃ before after, text = before ++ core ++ after ∧
    (∀ c ∈ before, c.toNat ∈ whiteSpace) ∧ ∀ c ∈ after, c.toNat ∈ whiteSpace

theorem IsPadded.refl (core : List Char) : IsPadded core core :=
  ⟨[], [], by simp⟩

/-- Neither a letter nor a digit is blank. -/
theorem isBlank_of_isAlphanum (plain : c.isAlphanum) : isBlank c = false := by
  have code : 65 ≤ c.toNat ∧ c.toNat ≤ 90 ∨ 97 ≤ c.toNat ∧ c.toNat ≤ 122 ∨
      48 ≤ c.toNat ∧ c.toNat ≤ 57 := by
    rw [Char.isAlphanum, Bool.or_eq_true, isAlpha_iff, Char.isDigit_iff_toNat, or_assoc] at plain
    exact plain
  simp [isBlank]
  omega

theorem trimStart_append {before : List Char} (blank : ∀ c ∈ before, isBlank c)
    (text : List Char) : trimStart (before ++ text) = trimStart text :=
  List.dropWhile_append_of_pos blank

theorem trimStart_cons (inked : isBlank c = false) (rest : List Char) :
    trimStart (c :: rest) = c :: rest :=
  List.dropWhile_cons_of_neg (by simp [inked])

theorem exists_trimStart (text : List Char) :
    ∃ before, text = before ++ trimStart text ∧ ∀ c ∈ before, isBlank c :=
  ⟨text.takeWhile isBlank, List.takeWhile_append_dropWhile.symm, fun _ => List.mem_takeWhile_imp⟩

/-- Only blanks are taken off a text. -/
theorem isPadded_trim (text : List Char) : IsPadded (trim text) text := by
  rcases exists_trimStart text with ⟨before, front, leading⟩
  rcases exists_trimStart (trimStart text).reverse with ⟨after, back, trailing⟩
  refine ⟨before, after.reverse, ?_, fun c member => isBlank_iff.1 (leading c member),
    fun c member => ?_⟩
  · have parts := congrArg List.reverse back
    rw [List.reverse_reverse, List.reverse_append] at parts
    rw [List.append_assoc, trim, ← parts]
    exact front
  · exact isBlank_iff.1 (trailing c (List.mem_reverse.1 member))

/-- Blanks are taken off up to the first character that is none. -/
theorem trimStart_padded {before : List Char} (blank : ∀ c ∈ before, isBlank c)
    (inked : ∀ c ∈ core, isBlank c = false) (nonempty : core ≠ []) (rest : List Char) :
    trimStart (before ++ (core ++ rest)) = core ++ rest := by
  rw [trimStart_append blank]
  cases core with
  | nil => exact absurd rfl nonempty
  | cons c others => exact trimStart_cons (inked c List.mem_cons_self) _

/-- All blanks are taken off the ends. -/
theorem trim_of_isPadded (inked : ∀ c ∈ core, isBlank c = false) (nonempty : core ≠ [])
    (padded : IsPadded core text) : trim text = core := by
  rcases padded with ⟨before, after, rfl, leading, trailing⟩
  have starting : ∀ c ∈ before, isBlank c := fun c member => isBlank_iff.2 (leading c member)
  have ending : ∀ c ∈ after.reverse, isBlank c :=
    fun c member => isBlank_iff.2 (trailing c (List.mem_reverse.1 member))
  have backwards : ∀ c ∈ core.reverse, isBlank c = false :=
    fun c member => inked c (List.mem_reverse.1 member)
  have last : trimStart (after.reverse ++ (core.reverse ++ [])) = core.reverse ++ [] :=
    trimStart_padded ending backwards (List.reverse_ne_nil_iff.2 nonempty) []
  rw [List.append_nil] at last
  rw [trim, List.append_assoc, trimStart_padded starting inked nonempty, List.reverse_append, last,
    List.reverse_reverse]

end SqlScribe.Text
