import SqlScribe.Document.TableChange
import SqlScribe.Proofs.Blanks
import SqlScribe.Proofs.Lexis.Literal

/-!
# The written forms of column sizes

A number of a size is a numeral, which may have a plus sign, between blanks; a
size is a number, or two with a comma between them.  `IsSizeText` is this
grammar, and `ColumnSize.read_eq_ok_iff` says that reading follows it.  The
limit of 32 bits is one on the value, so zeros may come first.

In a document a size is a text of the grammar, or its numbers themselves:
`Document.columnSize_eq_ok_iff`.
-/

namespace SqlScribe

open Binary64 (HasDigits hasDigits_decimal)
open Checked

namespace ColumnSize

/-! ## The grammar -/

/-- Digits of a number of 32 bits, with a plus sign before them or without one. -/
structure IsNumeral (number : Nat) (numeral : List Char) : Prop where
  written : ∃ digits, (numeral = digits ∨ numeral = '+' :: digits) ∧ HasDigits digits ∧
    Nat.ofDigitChars 10 digits 0 = number
  small : number < UInt32.size

/-- A numeral between blanks. -/
def IsNumberText (number : Nat) (text : List Char) : Prop :=
  ∃ numeral, IsNumeral number numeral ∧ Text.IsPadded numeral text

/-- The texts of a size: a number, or two numbers with a comma between them. -/
inductive IsSizeText : ColumnSize → List Char → Prop
  | length {digits : Nat} {text : List Char} (written : IsNumberText digits text) :
      IsSizeText (.length digits) text
  | precision {digits places : Nat} {front back : List Char}
      (first : IsNumberText digits front) (second : IsNumberText places back) :
      IsSizeText (.precision digits places) (front ++ ',' :: back)

/-- The numbers of the size have at most 32 bits. -/
def Fits : ColumnSize → Prop
  | .length digits => digits < UInt32.size
  | .precision digits places => digits < UInt32.size ∧ places < UInt32.size

variable {number : Nat} {size : ColumnSize} {text numeral : List Char}

/-! ## Numbers -/

theorem IsNumeral.nonempty (written : IsNumeral number numeral) : numeral ≠ [] := by
  rcases written.written with ⟨digits, rfl | rfl, given, -⟩
  · exact given.1
  · exact List.cons_ne_nil _ _

theorem IsNumeral.inked (written : IsNumeral number numeral) :
    ∀ c ∈ numeral, Text.isBlank c = false := by
  rcases written.written with ⟨digits, sign, given, -⟩
  have inked : ∀ c ∈ digits, Text.isBlank c = false :=
    fun c member => Text.isBlank_of_isAlphanum (by simp [Char.isAlphanum, given.2 c member])
  rcases sign with rfl | rfl
  · exact inked
  · exact List.forall_mem_cons.2 ⟨rfl, inked⟩

/-- Neither a numeral nor the blanks around it hold the mark between numbers. -/
theorem IsNumberText.comma_not_mem (written : IsNumberText number text) : ',' ∉ text := by
  rcases written with ⟨numeral, given, before, after, rfl, leading, trailing⟩
  rcases given.written with ⟨digits, sign, ⟨-, each⟩, -⟩
  have free : ',' ∉ digits := fun member => absurd (each _ member) (by decide)
  have comma : ',' ∉ numeral := by
    rcases sign with rfl | rfl
    · exact free
    · simpa using free
  have first : ',' ∉ before := fun member => absurd (leading _ member) (by decide)
  have last : ',' ∉ after := fun member => absurd (trailing _ member) (by decide)
  simp [first, comma, last]

theorem isNumeral_decimal (small : number < UInt32.size) :
    IsNumeral number (Nat.toDigits 10 number) :=
  ⟨⟨_, .inl rfl, hasDigits_decimal number, Nat.ofDigitChars_ten_toDigits⟩, small⟩

/-- What is left of a numeral without its sign. -/
def unsigned : List Char → List Char
  | '+' :: rest => rest
  | rest => rest

theorem unsigned_of_hasDigits {digits : List Char} (given : HasDigits digits) :
    unsigned digits = digits := by
  rw [unsigned]
  rintro rest rfl
  exact absurd (given.2 '+' List.mem_cons_self) (by decide)

theorem eq_unsigned_or (numeral : List Char) :
    numeral = unsigned numeral ∨ numeral = '+' :: unsigned numeral := by
  unfold unsigned
  split
  · exact .inr rfl
  · exact .inl rfl

theorem isNumeral_iff :
    IsNumeral number numeral ↔
      HasDigits (unsigned numeral) ∧ Nat.ofDigitChars 10 (unsigned numeral) 0 = number ∧
        number < UInt32.size := by
  constructor
  · rintro ⟨⟨digits, rfl | rfl, given, value⟩, small⟩
    · rw [unsigned_of_hasDigits given]
      exact ⟨given, value, small⟩
    · exact ⟨given, value, small⟩
  · rintro ⟨given, value, small⟩
    exact ⟨⟨_, eq_unsigned_or numeral, given, value⟩, small⟩

theorem isEmpty_or_not_all_isDigit {digits : List Char} :
    (digits.isEmpty || !digits.all Char.isDigit) = true ↔ ¬ HasDigits digits := by
  simp [HasDigits, or_iff_not_imp_left]

theorem number?_eq (text : List Char) :
    number? text =
      if (unsigned (Text.trim text)).isEmpty || !(unsigned (Text.trim text)).all Char.isDigit then
        none
      else if Nat.ofDigitChars 10 (unsigned (Text.trim text)) 0 < UInt32.size then
        some (Nat.ofDigitChars 10 (unsigned (Text.trim text)) 0)
      else none := by
  simp only [Nat.ofDigitChars_eq_foldl, Nat.mul_comm 10]
  rfl

theorem number?_eq_some_iff_isNumeral :
    number? text = some number ↔ IsNumeral number (Text.trim text) := by
  rw [number?_eq, isNumeral_iff]
  split
  · rename_i other
    have missing := isEmpty_or_not_all_isDigit.1 other
    simp [missing]
  · rename_i given
    have digits := not_not.1 (mt isEmpty_or_not_all_isDigit.2 given)
    split
    · rename_i small
      rw [Option.some_inj]
      constructor
      · rintro rfl
        exact ⟨digits, rfl, small⟩
      · exact fun written => written.2.1
    · rename_i large
      constructor
      · intro impossible
        cases impossible
      · rintro ⟨-, rfl, small⟩
        exact absurd small large

/-- The numbers that are read are those of the grammar. -/
theorem number?_eq_some : number? text = some number ↔ IsNumberText number text := by
  rw [number?_eq_some_iff_isNumeral]
  constructor
  · exact fun written => ⟨_, written, Text.isPadded_trim text⟩
  · rintro ⟨numeral, written, padded⟩
    rwa [Text.trim_of_isPadded written.inked written.nonempty padded]

/-! ## Sizes -/

theorem read?_eq_some : read? text = some size ↔ IsSizeText size text := by
  constructor
  · intro found
    rw [read?] at found
    split at found
    · rcases Option.map_eq_some_iff.1 found with ⟨digits, written, rfl⟩
      exact .length (number?_eq_some.1 written)
    · rename_i front back cut
      obtain ⟨rfl, -⟩ := Text.splitOnce?_eq_some.1 cut
      simp only [Option.bind_eq_bind, Option.bind_eq_some_iff, Option.pure_def,
        Option.some_inj] at found
      rcases found with ⟨digits, first, places, second, rfl⟩
      exact .precision (number?_eq_some.1 first) (number?_eq_some.1 second)
  · rintro (written | ⟨first, second⟩)
    · rw [read?, Text.splitOnce?_eq_none.2 written.comma_not_mem]
      simp [number?_eq_some.2 written]
    · rw [read?, Text.splitOnce?_append first.comma_not_mem]
      simp [number?_eq_some.2 first, number?_eq_some.2 second]

/-- A size is read from the texts that the grammar has for it, and from no others. -/
theorem read_eq_ok_iff {text : String} :
    read text = .ok size ↔ IsSizeText size text.toList := by
  rw [← read?_eq_some, read]
  cases read? text.toList <;> simp

theorem IsNumberText.small (written : IsNumberText number text) : number < UInt32.size := by
  rcases written with ⟨numeral, given, -⟩
  exact given.small

theorem IsSizeText.fits (written : IsSizeText size text) : size.Fits := by
  rcases written with written | ⟨first, second⟩
  · exact written.small
  · exact ⟨first.small, second.small⟩

theorem isNumberText_of_isPadded (small : number < UInt32.size)
    (padded : Text.IsPadded (Nat.toDigits 10 number) text) : IsNumberText number text :=
  ⟨_, isNumeral_decimal small, padded⟩

/-- What is printed of a size between its parentheses. -/
def bareText : ColumnSize → String
  | .length digits => toString digits
  | .precision digits places => toString digits ++ "," ++ toString places

theorem text_eq (size : ColumnSize) : size.text = "(" ++ size.bareText ++ ")" := by
  cases size <;> simp [text, bareText, String.append_assoc]

theorem isSizeText_bareText (fits : size.Fits) : IsSizeText size size.bareText.toList := by
  cases size with
  | length digits =>
      rw [bareText, Nat.toString_eq_ofList_toDigits, String.toList_ofList]
      exact .length (isNumberText_of_isPadded fits (.refl _))
  | precision digits places =>
      have parts : (bareText (.precision digits places)).toList =
          Nat.toDigits 10 digits ++ ',' :: Nat.toDigits 10 places := by
        simp [bareText]
      rw [parts]
      exact .precision (isNumberText_of_isPadded fits.1 (.refl _))
        (isNumberText_of_isPadded fits.2 (.refl _))

/-- The sizes that are read back from what is printed of them are those of 32 bits. -/
theorem read_bareText_iff : read size.bareText = .ok size ↔ size.Fits := by
  rw [read_eq_ok_iff]
  exact ⟨IsSizeText.fits, isSizeText_bareText⟩

end ColumnSize

/-! ## Sizes in documents -/

namespace Document

open ColumnSize

/-- The forms of a size in a document: its numbers, or a text of the grammar. -/
inductive IsSizeForm : ColumnSize → Json → Prop
  | length {digits : Nat} (small : digits < UInt32.size) :
      IsSizeForm (.length digits) (.integer digits)
  | precision {digits places : Nat} (first : digits < UInt32.size) (second : places < UInt32.size) :
      IsSizeForm (.precision digits places) (.array [.integer digits, .integer places])
  | text {size : ColumnSize} {text : String} (written : IsSizeText size text.toList) :
      IsSizeForm size (.string text)

theorem sizeNumber?_eq_some {value : Json} {number : Nat} :
    sizeNumber? value = some number ↔ number < UInt32.size ∧ value = .integer number := by
  have limit : numberLimit = UInt32.size := rfl
  constructor
  · intro found
    unfold sizeNumber? at found
    split at found
    · rename_i whole
      split at found
      · rename_i inside
        cases found
        have exact : (whole.toNat : Int) = whole := Int.toNat_of_nonneg inside.1
        refine ⟨by omega, ?_⟩
        rw [Json.integer, exact]
      · cases found
    · cases found
  · rintro ⟨small, rfl⟩
    have inside : 0 ≤ (number : Int) ∧ (number : Int) < numberLimit := by omega
    rw [Json.integer, sizeNumber?, if_pos inside, Int.toNat_natCast]

theorem columnSize_integer {value : Int} {number : Nat}
    (read : sizeNumber? (.integer value) = some number) :
    columnSize (.integer value) = .ok (.length number) := by
  unfold columnSize
  split
  · rename_i same
    cases same
  · rename_i same
    cases same
  · rw [read]

theorem columnSize_pair {first second : Json} {digits places : Nat}
    (front : sizeNumber? first = some digits) (back : sizeNumber? second = some places) :
    columnSize (.array [first, second]) = .ok (.precision digits places) := by
  rw [columnSize, front, back]

theorem columnSize_string {text : String} {size : ColumnSize} :
    columnSize (.string text) = .ok size ↔ IsSizeText size text.toList := by
  rw [columnSize, mapError_eq_ok, read_eq_ok_iff]

theorem isSizeForm_of_columnSize {value : Json} {size : ColumnSize}
    (decoded : columnSize value = .ok size) : IsSizeForm size value := by
  unfold columnSize at decoded
  split at decoded
  · rename_i text
    rw [mapError_eq_ok, read_eq_ok_iff] at decoded
    exact .text decoded
  · split at decoded
    · rename_i first second
      cases decoded
      obtain ⟨firstSmall, rfl⟩ := sizeNumber?_eq_some.1 first
      obtain ⟨secondSmall, rfl⟩ := sizeNumber?_eq_some.1 second
      exact .precision firstSmall secondSmall
    · cases decoded
  · split at decoded
    · rename_i number
      cases decoded
      obtain ⟨small, rfl⟩ := sizeNumber?_eq_some.1 number
      exact .length small
    · cases decoded

/-- A size is read from the forms that it has, and from nothing else. -/
theorem columnSize_eq_ok_iff {value : Json} {size : ColumnSize} :
    columnSize value = .ok size ↔ IsSizeForm size value := by
  refine ⟨isSizeForm_of_columnSize, fun form => ?_⟩
  cases form with
  | length small => exact columnSize_integer (sizeNumber?_eq_some.2 ⟨small, rfl⟩)
  | precision first second =>
      exact columnSize_pair (sizeNumber?_eq_some.2 ⟨first, rfl⟩)
        (sizeNumber?_eq_some.2 ⟨second, rfl⟩)
  | text written => exact columnSize_string.2 written

end Document

/--
A size is read from exactly the texts of the grammar, and in a document from
these and from its numbers.  So a number of 32 bits and its decimal text are
the same length, and two such numbers are the same precision as their texts
with a comma between them and any blanks around each.  What is printed of a
size between its parentheses is read back as this size exactly if its numbers
have 32 bits.
-/
theorem column_sizes_read_by_grammar :
    (∀ text size, ColumnSize.read text = .ok size ↔ ColumnSize.IsSizeText size text.toList) ∧
      (∀ value size, Document.columnSize value = .ok size ↔ Document.IsSizeForm size value) ∧
      (∀ digits : UInt32,
        Document.columnSize (.integer digits.toNat) = .ok (.length digits.toNat) ∧
          Document.columnSize (.string (toString digits.toNat)) = .ok (.length digits.toNat)) ∧
      (∀ (digits places : UInt32) (front back : String),
        Text.IsPadded (toString digits.toNat).toList front.toList →
        Text.IsPadded (toString places.toNat).toList back.toList →
          Document.columnSize (.array [.integer digits.toNat, .integer places.toNat]) =
              .ok (.precision digits.toNat places.toNat) ∧
            Document.columnSize (.string (front ++ "," ++ back)) =
              .ok (.precision digits.toNat places.toNat)) ∧
      ∀ size : ColumnSize, size.text = "(" ++ size.bareText ++ ")" ∧
        (ColumnSize.read size.bareText = .ok size ↔ size.Fits) := by
  refine ⟨fun _ _ => ColumnSize.read_eq_ok_iff, fun _ _ => Document.columnSize_eq_ok_iff, ?_, ?_,
    fun size => ⟨size.text_eq, ColumnSize.read_bareText_iff⟩⟩
  · intro digits
    have small : digits.toNat < UInt32.size := digits.toNat_lt_size
    have printed : ColumnSize.IsSizeText (.length digits.toNat) (toString digits.toNat).toList :=
      ColumnSize.isSizeText_bareText small
    exact ⟨Document.columnSize_eq_ok_iff.2 (.length small),
      Document.columnSize_eq_ok_iff.2 (.text printed)⟩
  · intro digits places front back first second
    have firstSmall : digits.toNat < UInt32.size := digits.toNat_lt_size
    have secondSmall : places.toNat < UInt32.size := places.toNat_lt_size
    rw [Nat.toString_eq_ofList_toDigits, String.toList_ofList] at first second
    have written : ColumnSize.IsSizeText (.precision digits.toNat places.toNat)
        (front ++ "," ++ back).toList := by
      rw [String.toList_append, String.toList_append, List.append_assoc]
      exact .precision (ColumnSize.isNumberText_of_isPadded firstSmall first)
        (ColumnSize.isNumberText_of_isPadded secondSmall second)
    exact ⟨Document.columnSize_eq_ok_iff.2 (.precision firstSmall secondSmall),
      Document.columnSize_eq_ok_iff.2 (.text written)⟩

/-- A blank before the first number, and two around the second one, of which one is not ASCII. -/
theorem column_sizes_read_by_grammar_spacedMoney :
    Document.columnSize (.array [.integer 14, .integer 2]) = .ok (.precision 14 2) ∧
      Document.columnSize (.string (" 14" ++ "," ++ "\t2\u2003")) = .ok (.precision 14 2) := by
  refine column_sizes_read_by_grammar.2.2.2.1 14 2 " 14" "\t2\u2003" ?_ ?_
  · exact ⟨[' '], [], rfl, List.forall_mem_singleton.2 (by decide), List.forall_mem_nil _⟩
  · exact ⟨['\t'], ['\u2003'], rfl, List.forall_mem_singleton.2 (by decide),
      List.forall_mem_singleton.2 (by decide)⟩

/-- Only the value is limited, and the sign belongs to the number. -/
example :
    ColumnSize.read "+0000000004294967295" = .ok (.length 4294967295) ∧
      ColumnSize.read "4294967296" = .error (.invalidValue "size" (.sizeText "4294967296")) ∧
      ColumnSize.read "14,+ 2" = .error (.invalidValue "size" (.sizeText "14,+ 2")) := by
  cbv

end SqlScribe
