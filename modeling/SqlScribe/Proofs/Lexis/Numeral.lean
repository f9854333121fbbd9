import Mathlib.Data.List.TakeWhile
import SqlScribe.Json.Printer
import SqlScribe.Proofs.Lexis.Lexer

/-!
# Numbers in SQL text

Every number that is printed is one number for the lexer, with a minus sign
before it if it is negative.  The printed digits of a double are never missing:
a decimal without digits would be zero, and zero does not read back as a double
other than zero.
-/

namespace SqlScribe

/-! ## The digits of doubles -/

namespace Binary64

variable {x : Binary64}

theorem readsBack_zero (nonzero : x.isZero = false) (step : Int) : x.readsBack step 0 = false := by
  have significand : 0 < x.significand := by
    apply Nat.pos_of_ne_zero
    simpa [isZero] using nonzero
  have lower : 0 < x.lowerEnd := by
    unfold lowerEnd
    split <;> omega
  have unit : 0 < Nat.pow 2 (x.exponent - 2).toNat * Nat.pow 10 (-step).toNat :=
    Nat.mul_pos (Nat.pow_pos (by decide)) (Nat.pow_pos (by decide))
  have positive := Nat.not_le.2 (Nat.mul_pos lower unit)
  simp only [readsBack, Nat.zero_mul]
  split
  · exact decide_eq_false fun inside => positive inside.1
  · exact decide_eq_false fun inside => Nat.not_lt_zero _ inside.1

theorem gridPoint?_pos
    {step : Int} {point : Nat}
    (nonzero : x.isZero = false) (found : x.gridPoint? step = some point) : 0 < point := by
  have below {n : Nat} (back : x.readsBack step n = true) : 0 < n := by
    apply Nat.pos_of_ne_zero
    rintro rfl
    rw [readsBack_zero nonzero] at back
    cases back
  have rounded (numerator denominator : Nat) :
      numerator / denominator ≤ roundedQuotient numerator denominator := by
    simp only [roundedQuotient]
    split
    · exact Nat.le_refl _
    · split
      · exact Nat.le_succ _
      · exact Nat.le_add_right _ _
  simp only [gridPoint?] at found
  split at found
  · rename_i first _
    cases found
    exact Nat.lt_of_lt_of_le (below first) (rounded _ _)
  · rename_i first _
    cases found
    exact below first
  · cases found
    exact Nat.succ_pos _
  · cases found

/-- Some digits, with at least one of them. -/
def HasDigits (digits : List Char) : Prop := digits ≠ [] ∧ ∀ c ∈ digits, c.isDigit

theorem hasDigits_decimal (n : Nat) : HasDigits (Nat.toDigits 10 n) :=
  ⟨Nat.toDigits_ne_nil, fun _ member => Nat.isDigit_of_mem_toDigits (by decide) (by decide) member⟩

/-- A number other than zero has a digit other than zero. -/
theorem digitsOfPoint_hasDigits {point : Nat} (positive : 0 < point) (step : Int) :
    HasDigits (digitsOfPoint point step).digits := by
  have kept : (digitsOfPoint point step).digits ⊆ Nat.toDigits 10 point := by
    intro c member
    apply List.mem_reverse.1
    exact (List.dropWhile_sublist _).subset (List.mem_reverse.1 member)
  constructor
  · intro empty
    have zeros : ∀ c ∈ Nat.toDigits 10 point, c = '0' := by
      intro c member
      have dropped := List.reverse_eq_nil_iff.1 empty
      rw [List.dropWhile_eq_nil_iff] at dropped
      simpa using dropped c (List.mem_reverse.2 member)
    have value := Nat.ofDigitChars_ten_toDigits (n := point)
    rw [List.eq_replicate_iff.2 ⟨rfl, zeros⟩, Nat.ofDigitChars_replicate_zero] at value
    omega
  · intro c member
    exact (hasDigits_decimal point).2 c (kept member)

theorem shortestDigits_hasDigits (nonzero : x.isZero = false) : HasDigits x.shortestDigits.digits := by
  simp only [shortestDigits]
  cases found : (List.range 17).findSome? fun more : Nat =>
      (x.gridPoint? (x.decimalOrder - more)).map (digitsOfPoint · (x.decimalOrder - more)) with
  | none =>
      constructor
      · simp
      · simp
  | some digits =>
      rcases List.exists_of_findSome?_eq_some found with ⟨more, -, chosen⟩
      rcases Option.map_eq_some_iff.1 chosen with ⟨point, grid, rfl⟩
      exact digitsOfPoint_hasDigits (gridPoint?_pos nonzero grid) _

end Binary64

/-! ## Digits for the lexer -/

namespace Lexis

open Binary64 (HasDigits hasDigits_decimal)

variable {c : Char} {seen digits text : List Char}

namespace Mode

theorem start_digit (digit : c.isDigit) : start c = .ok ([], .whole [c]) := by
  have other {plain : Char} (no : plain.isDigit = false) : c ≠ plain := by
    rintro rfl
    rw [digit] at no
    cases no
  have apart : c ≠ ' ' ∧ c ≠ '\t' ∧ c ≠ '\r' ∧ c ≠ '\n' ∧ c ≠ backtick ∧ c ≠ '\x27' ∧ c ≠ '"' ∧
      c ≠ '#' ∧ c ≠ '-' ∧ c ≠ '/' := by
    refine ⟨?_, ?_, ?_, ?_, ?_, ?_, ?_, ?_, ?_, ?_⟩ <;> exact other rfl
  simp [start, Char.isWhitespace, apart, digit]

/-- Digits stay in a mode that takes one of them. -/
theorem run_digits
    {mode : List Char → Mode}
    (stays : ∀ seen c, c.isDigit → (mode seen).step c = .ok ([], mode (seen ++ [c])))
    (seen : List Char)
    (shown : ∀ c ∈ digits, c.isDigit) :
    run (mode seen) digits = .ok ([], mode (seen ++ digits)) := by
  induction digits generalizing seen with
  | nil => simp [run]
  | cons c rest step =>
      have head := stays seen c (shown c List.mem_cons_self)
      have tail := step (seen ++ [c]) fun other member => shown other (List.mem_cons_of_mem _ member)
      rw [List.append_assoc] at tail
      exact run_cons head tail

theorem whole_digit (seen : List Char) (c : Char) (digit : c.isDigit) :
    (whole seen).step c = .ok ([], whole (seen ++ [c])) := by
  simp [step, digit]

theorem fraction_digit (seen : List Char) (c : Char) (digit : c.isDigit) :
    (fraction seen).step c = .ok ([], fraction (seen ++ [c])) := by
  simp [step, digit]

theorem exponent_digit (seen : List Char) (c : Char) (digit : c.isDigit) :
    (exponent seen).step c = .ok ([], exponent (seen ++ [c])) := by
  simp [step, digit]

end Mode

/-- The text is a number without a sign: it begins with a digit, and the lexer takes all of it. -/
def IsNumeral (text : List Char) : Prop :=
  (∃ c rest, text = c :: rest ∧ c.isDigit) ∧
    ∃ mode, run .between text = .ok ([], mode) ∧ mode.Settles [.number (String.ofList text)]

theorem run_whole (whole : HasDigits digits) : run .between digits = .ok ([], .whole digits) := by
  rcases digits with _ | ⟨c, rest⟩
  · exact absurd rfl whole.1
  · have head : Mode.between.step c = .ok ([], .whole [c]) :=
      Mode.start_digit (whole.2 c List.mem_cons_self)
    exact run_cons head (Mode.run_digits Mode.whole_digit [c] fun other member =>
      whole.2 other (List.mem_cons_of_mem _ member))

theorem starts_with_digit (whole : HasDigits digits) (rest : List Char) :
    ∃ c others, digits ++ rest = c :: others ∧ c.isDigit := by
  rcases digits with _ | ⟨c, others⟩
  · exact absurd rfl whole.1
  · exact ⟨c, others ++ rest, rfl, whole.2 c List.mem_cons_self⟩

theorem isNumeral_whole (whole : HasDigits digits) : IsNumeral digits := by
  constructor
  · simpa using starts_with_digit whole []
  · exact ⟨_, run_whole whole, Mode.settles_whole⟩

variable {whole fraction exponent : List Char}

theorem run_fraction (first : HasDigits whole) (second : ∀ c ∈ fraction, c.isDigit) :
    run .between (whole ++ '.' :: fraction) = .ok ([], .fraction (whole ++ '.' :: fraction)) := by
  have point : (Mode.whole whole).step '.' = .ok ([], .fraction (whole ++ ['.'])) := rfl
  have digits := Mode.run_digits Mode.fraction_digit (whole ++ ['.']) second
  rw [List.append_assoc] at digits
  exact run_append (run_whole first) (run_cons point digits)

theorem isNumeral_fraction (first : HasDigits whole) (second : ∀ c ∈ fraction, c.isDigit) :
    IsNumeral (whole ++ '.' :: fraction) := by
  constructor
  · exact starts_with_digit first _
  · exact ⟨_, run_fraction first second, Mode.settles_fraction⟩

theorem run_power
    {mode : Mode} {sign : Char}
    (mark : mode.step 'e' = .ok ([], .exponentMark (seen ++ ['e'])))
    (signed : sign = '+' ∨ sign = '-')
    (power : HasDigits exponent) :
    run mode ('e' :: sign :: exponent) = .ok ([], .exponent (seen ++ 'e' :: sign :: exponent)) := by
  rcases exponent with _ | ⟨c, rest⟩
  · exact absurd rfl power.1
  · have after : (Mode.exponentMark (seen ++ ['e'])).step sign =
        .ok ([], .exponentSign (seen ++ ['e', sign])) := by
      rcases signed with rfl | rfl <;> simp [Mode.step]
    have first : (Mode.exponentSign (seen ++ ['e', sign])).step c =
        .ok ([], .exponent (seen ++ ['e', sign, c])) := by
      simp [Mode.step, power.2 c List.mem_cons_self]
    have others := Mode.run_digits Mode.exponent_digit (seen ++ ['e', sign, c])
      fun other member => power.2 other (List.mem_cons_of_mem _ member)
    rw [List.append_assoc] at others
    exact run_cons mark (run_cons after (run_cons first others))

theorem isNumeral_power
    {mode : Mode} {mantissa : List Char} {sign : Char}
    (starts : ∃ c rest, mantissa = c :: rest ∧ c.isDigit)
    (through : run .between mantissa = .ok ([], mode))
    (mark : mode.step 'e' = .ok ([], .exponentMark (mantissa ++ ['e'])))
    (signed : sign = '+' ∨ sign = '-')
    (power : HasDigits exponent) :
    IsNumeral (mantissa ++ 'e' :: sign :: exponent) := by
  constructor
  · rcases starts with ⟨c, rest, rfl, digit⟩
    exact ⟨c, _, rfl, digit⟩
  · exact ⟨_, run_append through (run_power mark signed power), Mode.settles_exponent⟩

/-! ## Printed numbers -/

theorem isNumeral_positional (shown : HasDigits digits) (order : Int) :
    IsNumeral (RealFormat.positional digits order) := by
  have zeros (n : Nat) : ∀ c ∈ List.replicate n '0', c.isDigit := by
    intro c member
    rw [(List.mem_replicate.1 member).2]
    rfl
  cases order with
  | ofNat places =>
      have first : HasDigits (digits.take (places + 1) ++
          List.replicate (places + 1 - (digits.take (places + 1)).length) '0') := by
        constructor
        · rcases digits with _ | ⟨c, rest⟩
          · exact absurd rfl shown.1
          · simp
        · intro c member
          rcases List.mem_append.1 member with taken | filled
          · exact shown.2 c (List.mem_of_mem_take taken)
          · exact zeros _ c filled
      have second : ∀ c ∈ if (digits.drop (places + 1)).isEmpty then ['0']
          else digits.drop (places + 1), c.isDigit := by
        intro c member
        split at member
        · rw [List.mem_singleton.1 member]
          rfl
        · exact shown.2 c (List.mem_of_mem_drop member)
      have whole := isNumeral_fraction first second
      rw [List.append_assoc] at whole
      simpa only [RealFormat.positional, List.append_assoc] using whole
  | negSucc places =>
      have first : HasDigits ['0'] := ⟨by simp, by simp⟩
      have second : ∀ c ∈ List.replicate places '0' ++ digits, c.isDigit := by
        intro c member
        rcases List.mem_append.1 member with zero | shownDigit
        · exact zeros _ c zero
        · exact shown.2 c shownDigit
      exact isNumeral_fraction first second

theorem isNumeral_scientific (shown : HasDigits digits) (order : Int) :
    IsNumeral (RealFormat.scientific digits order) := by
  have signed : (if order < 0 then '-' else '+') = '+' ∨ (if order < 0 then '-' else '+') = '-' := by
    split
    · exact .inr rfl
    · exact .inl rfl
  have power := hasDigits_decimal order.natAbs
  rcases digits with _ | ⟨first, _ | ⟨second, rest⟩⟩
  · exact absurd rfl shown.1
  · exact isNumeral_power ⟨first, [], rfl, shown.2 first List.mem_cons_self⟩ (run_whole shown) rfl
      signed power
  · have leading : HasDigits [first] :=
      ⟨by simp, by simpa using shown.2 first List.mem_cons_self⟩
    have fraction : ∀ c ∈ second :: rest, c.isDigit := fun c member =>
      shown.2 c (List.mem_cons_of_mem _ member)
    exact isNumeral_power ⟨first, _, rfl, shown.2 first List.mem_cons_self⟩
      (run_fraction leading fraction) rfl signed power

/-- A number is printed as a numeral, with a minus sign before it if it is negative. -/
theorem numeral_of_text (value : JsonNumber) :
    IsNumeral value.text ∨ ∃ numeral, value.text = '-' :: numeral ∧ IsNumeral numeral := by
  cases value with
  | integer value =>
      cases value with
      | ofNat n => exact .inl (isNumeral_whole (hasDigits_decimal n))
      | negSucc n => exact .inr ⟨_, rfl, isNumeral_whole (hasDigits_decimal (n + 1))⟩
  | real x =>
      have magnitude : ∃ numeral, IsNumeral numeral ∧
          JsonNumber.text (.real x) = if x.negative then '-' :: numeral else numeral := by
        refine ⟨_, ?_, rfl⟩
        cases zero : x.isZero with
        | true =>
            rw [if_pos rfl]
            have leading : HasDigits ['0'] := ⟨by simp, by simp⟩
            exact isNumeral_fraction leading leading.2
        | false =>
            have shown := Binary64.shortestDigits_hasDigits zero
            rw [if_neg (by simp)]
            dsimp only
            split
            · exact isNumeral_positional shown _
            · exact isNumeral_scientific shown _
      rcases magnitude with ⟨numeral, isNumeral, text⟩
      rw [text]
      split
      · exact .inr ⟨numeral, rfl, isNumeral⟩
      · exact .inl isNumeral

/-- The tokens of a printed number: the sign of a negative one stands for itself. -/
def numberTokens : List Char → List Token
  | '-' :: numeral => [.symbol "-", .number (String.ofList numeral)]
  | numeral => [.number (String.ofList numeral)]

theorem numberTokens_of_numeral (numeral : IsNumeral text) :
    numberTokens text = [.number (String.ofList text)] := by
  rcases numeral.1 with ⟨c, rest, rfl, digit⟩
  unfold numberTokens
  split
  · rename_i same
    cases same
    cases digit
  · rfl

theorem reads_numeral (numeral : IsNumeral text) : Reads text (numberTokens text) := by
  rw [numberTokens_of_numeral numeral]
  rcases numeral.2 with ⟨mode, through, settles⟩
  exact reads_of_run through settles

theorem reads_negative (numeral : IsNumeral text) : Reads ('-' :: text) (numberTokens ('-' :: text)) := by
  rcases numeral with ⟨⟨c, rest, rfl, digit⟩, mode, through, settles⟩
  have sign : Mode.between.step '-' = .ok ([], .minus) := rfl
  have first : Mode.minus.step c = .ok ([.symbol "-"], .whole [c]) := by
    have different : c ≠ '-' := by
      rintro rfl
      cases digit
    simp [Mode.step, different, Mode.after, Mode.start_digit digit, Except.map]
  have start : Mode.between.step c = .ok ([], .whole [c]) := Mode.start_digit digit
  rw [run_skip start] at through
  exact reads_of_run (run_cons sign (run_cons first through)) settles

theorem reads_number (value : JsonNumber) : Reads value.text (numberTokens value.text) := by
  rcases numeral_of_text value with numeral | ⟨numeral, text, isNumeral⟩
  · exact reads_numeral numeral
  · rw [text]
    exact reads_negative isNumeral

end Lexis

end SqlScribe
